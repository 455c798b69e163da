import OperatorScript.Proofs.Digits
import OperatorScript.Proofs.RoundingInterval

/-!
The decimal that the search on ever finer grids finds.

The search stops on the coarsest grid that has a point in the interval. The main statements: the
decimal found reads back as the number, no decimal that does has fewer digits, and of those with as
many digits none is nearer to the number.
-/

set_option autoImplicit false
set_option relaxedAutoImplicit false

namespace OperatorScript

namespace Decimal

private theorem units_le_units (scale : Int) {a b : Nat} (le : a ≤ b) :
    units ⟨a, scale⟩ ≤ units ⟨b, scale⟩ := by
  have power : (0 : ℚ) ≤ (10 : ℚ) ^ scale := zpow_nonneg (by norm_num) _
  have digits : (a : ℚ) ≤ b := Nat.cast_le.mpr le
  exact mul_le_mul_of_nonneg_right (mul_le_mul_of_nonneg_right digits power)
    Binary64.cast_one_pos.le

private theorem units_one (scale : Int) : units ⟨1, scale⟩ = (10 : ℚ) ^ scale * Binary64.one := by
  rw [units, Nat.cast_one, one_mul]

private theorem units_succ (n : Nat) (scale : Int) :
    units ⟨n + 1, scale⟩ = units ⟨n, scale⟩ + (10 : ℚ) ^ scale * Binary64.one := by
  simp only [units, Nat.cast_add, Nat.cast_one]
  ring

/-- The place of the decimal point: the number of digits before it, or minus the number of zeros
after it. -/
def point (d : Decimal) : Int := d.scale + d.text.length

private theorem units_lt_point (d : Decimal) : d.units < (10 : ℚ) ^ d.point * Binary64.one := by
  rw [point, add_comm]
  exact units_lt d.digits_lt

private theorem zpow_point_le_units {d : Decimal} (filled : d.digits ≠ 0) :
    (10 : ℚ) ^ (d.point - 1) * Binary64.one ≤ d.units := by
  have first : units ⟨10 ^ (d.text.length - 1), d.scale⟩ ≤ d.units :=
    units_le_units _ (pow_le_digits filled)
  have place : d.point - 1 = (d.text.length - 1 : Nat) + d.scale := by
    have := d.length_text_pos
    unfold point
    omega
  refine le_of_eq_of_le ?_ first
  rw [place, zpow_add₀ (by norm_num), zpow_natCast, units, Nat.cast_pow, Nat.cast_ofNat]

theorem units_one_le_iff {d : Decimal} (filled : d.digits ≠ 0) (scale : Int) :
    units ⟨1, scale⟩ ≤ d.units ↔ scale < d.point := by
  rw [units_one]
  constructor
  · intro reached
    have order := reached.trans_lt d.units_lt_point
    rw [mul_lt_mul_iff_left₀ Binary64.cast_one_pos] at order
    exact (zpow_lt_zpow_iff_right₀ (by norm_num)).mp order
  · intro before
    exact (Binary64.zpow_mul_one_le (Int.le_sub_one_of_lt before)).trans
      (zpow_point_le_units filled)

private theorem units_le_of_one_digit {d : Decimal} {scale : Int} (single : d.text.length = 1)
    (below : d.scale < scale) : d.units ≤ 9 / 10 * units ⟨1, scale⟩ := by
  have digit : (d.digits : ℚ) ≤ 9 := by
    have short := d.digits_lt
    rw [single] at short
    exact_mod_cast Nat.le_of_lt_succ short
  have power : (10 : ℚ) ^ d.scale ≤ (10 : ℚ) ^ scale / 10 := by
    rw [div_eq_mul_inv, ← zpow_sub_one₀ (by norm_num)]
    exact zpow_le_zpow_right₀ (by norm_num) (Int.le_sub_one_of_lt below)
  have product : (d.digits : ℚ) * (10 : ℚ) ^ d.scale ≤ 9 * ((10 : ℚ) ^ scale / 10) :=
    mul_le_mul digit power (zpow_nonneg (by norm_num) _) (by norm_num)
  rw [units_one, units, ← mul_assoc]
  exact mul_le_mul_of_nonneg_right (product.trans_eq (by ring)) Binary64.cast_one_pos.le

private theorem units_mul (n : Nat) (scale : Int) :
    4 * units ⟨n, scale⟩ * (Nat.pow 10 (-scale).toNat : Nat) =
      (n * (Binary64.quartersOfOne * Nat.pow 10 scale.toNat) : Nat) := by
  have power : (10 : ℚ) ^ scale * (10 : ℚ) ^ (-scale).toNat = (10 : ℚ) ^ scale.toNat := by
    rw [← zpow_natCast, ← zpow_natCast, ← zpow_add₀ (by norm_num)]
    congr 1
    omega
  rw [units, Binary64.quartersOfOne, Nat.pow_eq, Nat.pow_eq]
  generalize Binary64.one = one
  push_cast
  rw [← power]
  ring

end Decimal

namespace Binary64

def RoundingInterval.center (i : RoundingInterval) : ℚ := i.middle / 4

private theorem RoundingInterval.hits_grid_iff (i : RoundingInterval) (scale : Int) (n : Nat) :
    (i.grid scale).hits n = true ↔ i.Contains (Decimal.units ⟨n, scale⟩) := by
  have down : (0 : ℚ) < (Nat.pow 10 (-scale).toNat : Nat) :=
    Nat.cast_pos.mpr (Nat.pow_pos (by decide))
  have point := Decimal.units_mul n scale
  have low : (i.low : ℚ) ≤ 4 * Decimal.units ⟨n, scale⟩ ↔
      i.low * Nat.pow 10 (-scale).toNat ≤ n * (quartersOfOne * Nat.pow 10 scale.toNat) := by
    rw [← mul_le_mul_iff_left₀ down, point, ← Nat.cast_mul, Nat.cast_le]
  have high : 4 * Decimal.units ⟨n, scale⟩ ≤ (i.high : ℚ) ↔
      n * (quartersOfOne * Nat.pow 10 scale.toNat) ≤ i.high * Nat.pow 10 (-scale).toNat := by
    rw [← mul_le_mul_iff_left₀ down, point, ← Nat.cast_mul, Nat.cast_le]
  have low' : (i.low : ℚ) < 4 * Decimal.units ⟨n, scale⟩ ↔
      i.low * Nat.pow 10 (-scale).toNat < n * (quartersOfOne * Nat.pow 10 scale.toNat) := by
    rw [← mul_lt_mul_iff_left₀ down, point, ← Nat.cast_mul, Nat.cast_lt]
  have high' : 4 * Decimal.units ⟨n, scale⟩ < (i.high : ℚ) ↔
      n * (quartersOfOne * Nat.pow 10 scale.toNat) < i.high * Nat.pow 10 (-scale).toNat := by
    rw [← mul_lt_mul_iff_left₀ down, point, ← Nat.cast_mul, Nat.cast_lt]
  unfold RoundingInterval.Contains Grid.hits
  rw [low, high, low', high']
  change (if i.closed = true then _ else _) = true ↔ _
  split <;> exact Bool.and_eq_true_iff.trans (and_congr decide_eq_true_iff decide_eq_true_iff)

private theorem RoundingInterval.center_between (i : RoundingInterval) (scale : Int) :
    let below := (i.grid scale).interval.middle / (i.grid scale).step
    Decimal.units ⟨below, scale⟩ ≤ i.center ∧ i.center < Decimal.units ⟨below + 1, scale⟩ := by
  intro below
  have down : (0 : ℚ) < (Nat.pow 10 (-scale).toNat : Nat) :=
    Nat.cast_pos.mpr (Nat.pow_pos (by decide))
  have step : 0 < (i.grid scale).step :=
    Nat.mul_pos (Nat.mul_pos (by decide) one_pos) (Nat.pow_pos (by decide))
  have first : (below * (i.grid scale).step : Nat) ≤
      ((i.middle * Nat.pow 10 (-scale).toNat : Nat) : ℚ) :=
    Nat.cast_le.mpr (Nat.div_mul_le_self _ _)
  have last : ((i.middle * Nat.pow 10 (-scale).toNat : Nat) : ℚ) <
      ((below + 1) * (i.grid scale).step : Nat) := by
    refine Nat.cast_lt.mpr ?_
    rw [Nat.mul_comm (below + 1)]
    exact Nat.lt_mul_div_succ _ step
  have lower := Decimal.units_mul below scale
  have upper := Decimal.units_mul (below + 1) scale
  rw [RoundingInterval.grid, ← lower, Nat.cast_mul, mul_le_mul_iff_left₀ down] at first
  rw [RoundingInterval.grid, ← upper, Nat.cast_mul, mul_lt_mul_iff_left₀ down] at last
  rw [RoundingInterval.center]
  constructor <;> linarith

private theorem Grid.not_hits_of_nearest?_eq_none {g : Grid} {tie : Tie}
    (none : g.nearest? tie = none) :
    let below := g.interval.middle / g.step
    g.hits below = false ∧ g.hits (below + 1) = false := by
  unfold nearest? at none
  grind

private theorem Grid.hits_of_nearest?_eq_some {g : Grid} {tie : Tie} {n : Nat}
    (some : g.nearest? tie = some n) :
    let below := g.interval.middle / g.step
    let rest := g.interval.middle % g.step
    g.hits n = true ∧
      (n = below ∧ (g.hits (below + 1) = true → 2 * rest ≤ g.step) ∨
        n = below + 1 ∧ (g.hits below = true → g.step ≤ 2 * rest)) := by
  unfold nearest? at some
  grind

section Grid

variable {i : RoundingInterval} {scale : Int} {tie : Tie}

private theorem hits_neighbour (central : i.Contains i.center) {n : Nat}
    (hit : (i.grid scale).hits n = true) :
    let below := (i.grid scale).interval.middle / (i.grid scale).step
    (i.grid scale).hits below = true ∧ n ≤ below ∨
      (i.grid scale).hits (below + 1) = true ∧ below + 1 ≤ n := by
  intro below
  obtain ⟨lower, upper⟩ := i.center_between scale
  rw [i.hits_grid_iff] at hit
  simp only [i.hits_grid_iff]
  rcases Nat.lt_or_ge below n with above | under
  · exact .inr ⟨central.between hit upper.le (Decimal.units_le_units scale above), above⟩
  · exact .inl ⟨hit.between central (Decimal.units_le_units scale under) lower, under⟩

private theorem not_hits_of_nearest?_eq_none (central : i.Contains i.center)
    (none : (i.grid scale).nearest? tie = none) (n : Nat) : (i.grid scale).hits n = false := by
  refine Bool.eq_false_iff.mpr fun hit => ?_
  have missed := Grid.not_hits_of_nearest?_eq_none none
  rcases hits_neighbour central hit with ⟨inside, -⟩ | ⟨inside, -⟩
  · rw [missed.1] at inside
    cases inside
  · rw [missed.2] at inside
    cases inside

private theorem two_mul_rest_le_iff (i : RoundingInterval) (scale : Int) :
    let g := i.grid scale
    let below := g.interval.middle / g.step
    let rest := g.interval.middle % g.step
    (2 * rest ≤ g.step ↔ i.center - Decimal.units ⟨below, scale⟩ ≤
        Decimal.units ⟨below + 1, scale⟩ - i.center) ∧
      (g.step ≤ 2 * rest ↔ Decimal.units ⟨below + 1, scale⟩ - i.center ≤
        i.center - Decimal.units ⟨below, scale⟩) := by
  intro g below rest
  have down : (0 : ℚ) < (Nat.pow 10 (-scale).toNat : Nat) :=
    Nat.cast_pos.mpr (Nat.pow_pos (by decide))
  have parts : ((g.step * below + rest : Nat) : ℚ) = (i.middle * Nat.pow 10 (-scale).toNat : Nat) :=
    congrArg Nat.cast (Nat.div_add_mod g.interval.middle g.step)
  have lower : 4 * Decimal.units ⟨below, scale⟩ * (Nat.pow 10 (-scale).toNat : Nat) =
      (below * g.step : Nat) := Decimal.units_mul below scale
  have upper : 4 * Decimal.units ⟨below + 1, scale⟩ * (Nat.pow 10 (-scale).toNat : Nat) =
      ((below + 1) * g.step : Nat) := Decimal.units_mul (below + 1) scale
  have order (a b : ℚ) : a ≤ b ↔ 4 * a * (Nat.pow 10 (-scale).toNat : Nat) ≤
      4 * b * (Nat.pow 10 (-scale).toNat : Nat) := by
    rw [mul_le_mul_iff_left₀ down]
    constructor <;> intro le <;> linarith
  push_cast at parts lower upper
  have left : 4 * (i.center - Decimal.units ⟨below, scale⟩) *
      (Nat.pow 10 (-scale).toNat : Nat) = rest := by
    rw [RoundingInterval.center]
    linarith
  have right : 4 * (Decimal.units ⟨below + 1, scale⟩ - i.center) *
      (Nat.pow 10 (-scale).toNat : Nat) = g.step - rest := by
    rw [RoundingInterval.center]
    linarith
  constructor
  · rw [order, left, right, ← Nat.cast_le (α := ℚ)]
    push_cast
    constructor <;> intro le <;> linarith
  · rw [order, left, right, ← Nat.cast_le (α := ℚ)]
    push_cast
    constructor <;> intro le <;> linarith

private theorem nearest_of_nearest?_eq_some (central : i.Contains i.center) {n k : Nat}
    (some : (i.grid scale).nearest? tie = some n) (hit : (i.grid scale).hits k = true) :
    |Decimal.units ⟨n, scale⟩ - i.center| ≤ |Decimal.units ⟨k, scale⟩ - i.center| := by
  have neighbour := hits_neighbour central hit
  obtain ⟨first, last⟩ := two_mul_rest_le_iff i scale
  obtain ⟨lower, upper⟩ := i.center_between scale
  obtain ⟨-, taken⟩ := Grid.hits_of_nearest?_eq_some some
  generalize (i.grid scale).interval.middle / (i.grid scale).step = below at *
  have left : |Decimal.units ⟨below, scale⟩ - i.center| =
      i.center - Decimal.units ⟨below, scale⟩ := by
    rw [abs_sub_comm]
    exact abs_of_nonneg (sub_nonneg.mpr lower)
  have right : |Decimal.units ⟨below + 1, scale⟩ - i.center| =
      Decimal.units ⟨below + 1, scale⟩ - i.center := abs_of_nonneg (sub_nonneg.mpr upper.le)
  have near : ((i.grid scale).hits below = true →
        |Decimal.units ⟨n, scale⟩ - i.center| ≤ |Decimal.units ⟨below, scale⟩ - i.center|) ∧
      ((i.grid scale).hits (below + 1) = true →
        |Decimal.units ⟨n, scale⟩ - i.center| ≤ |Decimal.units ⟨below + 1, scale⟩ - i.center|) := by
    rcases taken with ⟨rfl, closer⟩ | ⟨rfl, closer⟩
    · refine ⟨fun _ => le_rfl, fun inside => ?_⟩
      rw [left, right]
      exact first.mp (closer inside)
    · refine ⟨fun inside => ?_, fun _ => le_rfl⟩
      rw [left, right]
      exact last.mp (closer inside)
  rcases neighbour with ⟨inside, le⟩ | ⟨inside, le⟩
  · refine (near.1 inside).trans ?_
    have := Decimal.units_le_units scale le
    rw [left]
    exact le_trans (by linarith) (neg_le_abs _)
  · refine (near.2 inside).trans ?_
    have := Decimal.units_le_units scale le
    rw [right]
    exact le_trans (by linarith) (le_abs_self _)

/-- A decimal on the coarsest grid that has a point in an interval, and the nearest of these to its
middle. -/
structure RoundingInterval.Coarsest (i : RoundingInterval) (d : Decimal) : Prop where
  contained : i.Contains d.units
  coarsest : ∀ other : Decimal, i.Contains other.units → other.scale ≤ d.scale
  nearest : ∀ n, i.Contains (Decimal.units ⟨n, d.scale⟩) →
    |d.units - i.center| ≤ |Decimal.units ⟨n, d.scale⟩ - i.center|

private theorem coarsest_coarsest (central : i.Contains i.center) {fuel : Nat}
    (first : ∀ other : Decimal, i.Contains other.units → other.scale ≤ scale)
    (last : ∃ steps < fuel, ∃ n, i.Contains (Decimal.units ⟨n, scale - steps⟩)) :
    i.Coarsest (i.coarsest tie fuel scale) := by
  induction fuel generalizing scale with
  | zero =>
    obtain ⟨steps, below, -⟩ := last
    exact absurd below (Nat.not_lt_zero steps)
  | succ fuel ih =>
    unfold RoundingInterval.coarsest
    split
    · next n some =>
      have hit := (i.hits_grid_iff scale n).mp (Grid.hits_of_nearest?_eq_some some).1
      refine ⟨hit, first, fun k inside => ?_⟩
      exact nearest_of_nearest?_eq_some central some ((i.hits_grid_iff scale k).mpr inside)
    · next none =>
      have missed (n : Nat) : ¬ i.Contains (Decimal.units ⟨n, scale⟩) := by
        rw [← i.hits_grid_iff, not_hits_of_nearest?_eq_none central none n]
        exact Bool.false_ne_true
      refine ih (fun other inside => ?_) ?_
      · refine Int.le_sub_one_of_lt (lt_of_le_of_ne (first other inside) fun equal => ?_)
        exact missed other.digits (equal ▸ inside)
      · obtain ⟨steps, below, n, inside⟩ := last
        cases steps with
        | zero =>
          rw [Nat.cast_zero, sub_zero] at inside
          exact absurd inside (missed n)
        | succ steps =>
          refine ⟨steps, Nat.lt_of_succ_lt_succ below, n, ?_⟩
          rwa [sub_sub, add_comm, ← Nat.cast_succ]

end Grid

section Number

variable {mantissa exponent : Nat}

private theorem center_roundingInterval (mantissa exponent : Nat) :
    (roundingInterval mantissa exponent).center = (mantissa * Nat.pow 2 exponent : Nat) := by
  rw [RoundingInterval.center, roundingInterval]
  push_cast
  ring

theorem shortest_coarsest (canonical : Canonical mantissa exponent) (filled : 0 < mantissa)
    (tie : Tie) :
    (roundingInterval mantissa exponent).Coarsest (shortest tie mantissa exponent) := by
  refine coarsest_coarsest ?_ (fun other inside => ?_) ⟨633, by decide, ?_⟩
  · rw [center_roundingInterval]
    exact contains_self filled exponent
  · exact (scale_of_contains canonical filled inside).2.1.le
  · -- On the last grid the points are less than half a unit apart.
    rw [show (309 : Int) - (633 : Nat) = -((324 : Nat) : Int) from rfl]
    obtain ⟨lower, upper⟩ :=
      (roundingInterval mantissa exponent).center_between (-((324 : Nat) : Int))
    rw [center_roundingInterval] at lower upper
    rw [Decimal.units_succ] at upper
    exact ⟨_, contains_of_close filled (by linarith [zpow_mul_one_lt_half]) lower⟩

private theorem RoundingInterval.Coarsest.one_digit {i : RoundingInterval} {d other : Decimal}
    (coarsest : i.Coarsest d) (filled : d.digits ≠ 0) (inside : i.Contains other.units)
    (before : other.point < d.point) :
    d.text.length = 1 ∧ i.Contains (Decimal.units ⟨1, d.scale⟩) := by
  have within : i.Contains (Decimal.units ⟨1, d.point - 1⟩) := by
    refine inside.between coarsest.contained ?_ ?_
    · rw [Decimal.units_one]
      exact other.units_lt_point.le.trans (zpow_mul_one_le (Int.le_sub_one_of_lt before))
    · exact (Decimal.units_one_le_iff filled _).mpr (Int.sub_one_lt_of_le le_rfl)
  have reached : d.point - 1 ≤ d.scale := coarsest.coarsest ⟨1, d.point - 1⟩ within
  have length : d.text.length = 1 := by
    have := d.length_text_pos
    unfold Decimal.point at reached
    omega
  refine ⟨length, ?_⟩
  rwa [Decimal.point, length, Nat.cast_one, add_sub_cancel_right] at within

private theorem RoundingInterval.Coarsest.length_text_le {i : RoundingInterval} {d other : Decimal}
    (coarsest : i.Coarsest d) (filled : d.digits ≠ 0) (inside : i.Contains other.units) :
    d.text.length ≤ other.text.length := by
  refine Nat.le_of_not_lt fun fewer => ?_
  have scales := coarsest.coarsest other inside
  have before : other.point < d.point := by
    unfold Decimal.point
    omega
  have length := (coarsest.one_digit filled inside before).1
  have := other.length_text_pos
  omega

private theorem least_powers :
    2 < (10 : ℚ) ^ (-((323 : Nat) : ℤ)) * one ∧ (10 : ℚ) ^ (-((323 : Nat) : ℤ)) * one < 21 / 10 ∧
      20 < (10 : ℚ) ^ (-((322 : Nat) : ℤ)) * one := by
  have low : 2 * 10 ^ 323 < one := by decide +kernel
  have high : 10 * one < 21 * 10 ^ 323 := by decide +kernel
  have next : 20 * 10 ^ 322 < one := by decide +kernel
  have above {unit places n : Nat} (large : n * 10 ^ places < unit) :
      (n : ℚ) < (10 : ℚ) ^ (-(places : ℤ)) * unit := by
    have cast : (n : ℚ) * (10 : ℚ) ^ places < unit := by exact_mod_cast large
    rw [zpow_neg, zpow_natCast, inv_mul_eq_div, lt_div_iff₀ (pow_pos (by norm_num) _)]
    exact cast
  generalize 323 = places at low high ⊢
  generalize 322 = places' at next ⊢
  exact ⟨by exact_mod_cast above low, by exact_mod_cast zpow_neg_mul_lt (by decide) high,
    by exact_mod_cast above next⟩

private theorem small_of_wide (canonical : Canonical mantissa exponent) {power units : ℚ}
    (within : (roundingInterval mantissa exponent).Contains power)
    (inside : (roundingInterval mantissa exponent).Contains units) (filled : 0 < mantissa)
    (tenth : units ≤ 9 / 10 * power) : mantissa ≤ 9 ∧ exponent = 0 := by
  have place : (0 : ℚ) < (Nat.pow 2 exponent : Nat) := Nat.cast_pos.mpr (Nat.pow_pos (by decide))
  have low : ((4 * mantissa * Nat.pow 2 exponent : Nat) : ℚ) ≤
      ((roundingInterval mantissa exponent).low + 2 * Nat.pow 2 exponent : Nat) := by
    rw [Nat.cast_le, ← low_add filled exponent]
    exact Nat.add_le_add_left (Nat.mul_le_mul_right _ (lowerQuarters_le_two _ _)) _
  have lower := inside.bounds.1
  have upper := within.bounds.2
  rw [high_eq] at upper
  push_cast at low upper
  have bound : (mantissa : ℚ) * (Nat.pow 2 exponent : Nat) < 10 * (Nat.pow 2 exponent : Nat) := by
    linarith
  have few : mantissa < 10 := by
    exact_mod_cast lt_of_mul_lt_mul_right bound place.le
  refine ⟨Nat.le_of_lt_succ few, canonical.2.2.resolve_right fun normal => ?_⟩
  exact absurd (normal.trans_lt few) (by decide)

private theorem power_nearer (canonical : Canonical mantissa exponent) (filled : 0 < mantissa)
    {scale : Int} {units : ℚ}
    (within : (roundingInterval mantissa exponent).Contains (Decimal.units ⟨1, scale⟩))
    (inside : (roundingInterval mantissa exponent).Contains units)
    (tenth : units ≤ 9 / 10 * Decimal.units ⟨1, scale⟩)
    (above : ((mantissa * Nat.pow 2 exponent : Nat) : ℚ) < Decimal.units ⟨1, scale⟩) :
    Decimal.units ⟨1, scale⟩ - (mantissa * Nat.pow 2 exponent : Nat) ≤
      (mantissa * Nat.pow 2 exponent : Nat) - units := by
  obtain ⟨few, rfl⟩ := small_of_wide canonical within inside filled tenth
  have one' : Nat.pow 2 0 = 1 := rfl
  have upper := within.bounds.2
  rw [high_eq, one', Nat.mul_one, Nat.mul_one] at upper
  rw [one', Nat.mul_one] at above ⊢
  push_cast at upper
  rw [Decimal.units_one] at *
  have most : (mantissa : ℚ) ≤ 9 := by exact_mod_cast few
  have least : (1 : ℚ) ≤ mantissa := by exact_mod_cast filled
  obtain ⟨low, high, next⟩ := least_powers
  rcases Int.lt_trichotomy scale (-((323 : Nat) : Int)) with small | rfl | large
  · have tiny := zpow_mul_one_le (show scale ≤ -((324 : Nat) : Int) by omega)
    have half := zpow_mul_one_lt_half
    generalize (10 : ℚ) ^ (-((324 : Nat) : ℤ)) * one = bound at tiny half
    linarith
  · -- The number is the second least one.
    generalize (10 : ℚ) ^ (-((323 : Nat) : ℤ)) * one = power at *
    have two : mantissa = 2 := by
      have below : (mantissa : ℚ) < 3 := by linarith
      have reached : (1 : ℚ) < mantissa := by linarith
      have below' : mantissa < 3 := by exact_mod_cast below
      have reached' : 1 < mantissa := by exact_mod_cast reached
      omega
    rw [two]
    push_cast
    linarith
  · have huge := zpow_mul_one_le (show -((322 : Nat) : Int) ≤ scale by omega)
    generalize (10 : ℚ) ^ (-((322 : Nat) : ℤ)) * one = bound at huge next
    linarith

/-- Of the decimals with as few digits as the one found, none is nearer to the number. -/
private theorem shortest_nearest (canonical : Canonical mantissa exponent) (filled : 0 < mantissa)
    (tie : Tie) {other : Decimal}
    (inside : (roundingInterval mantissa exponent).Contains other.units)
    (same : other.text.length = (shortest tie mantissa exponent).text.length) :
    |(shortest tie mantissa exponent).units - (mantissa * Nat.pow 2 exponent : Nat)| ≤
      |other.units - (mantissa * Nat.pow 2 exponent : Nat)| := by
  have coarsest := shortest_coarsest canonical filled tie
  have digits := (scale_of_contains canonical filled coarsest.contained).1
  have nearest := coarsest.nearest
  rw [center_roundingInterval] at nearest
  generalize shortest tie mantissa exponent = d at *
  rcases (coarsest.coarsest other inside).eq_or_lt with level | finer
  · have point : other = ⟨other.digits, d.scale⟩ := by rw [← level]
    rw [point] at inside ⊢
    exact nearest _ inside
  · -- The other decimal lies before the first digit of the one found, which is the only one.
    have before : other.point < d.point := by
      unfold Decimal.point
      omega
    obtain ⟨single, within⟩ := coarsest.one_digit digits inside before
    have power := nearest 1 within
    have tenth : other.units ≤ 9 / 10 * Decimal.units ⟨1, d.scale⟩ :=
      Decimal.units_le_of_one_digit (same.trans single) finer
    rcases le_or_gt (Decimal.units ⟨1, d.scale⟩) ((mantissa * Nat.pow 2 exponent : Nat) : ℚ)
      with low | high
    · have positive : 0 ≤ Decimal.units ⟨1, d.scale⟩ := by
        rw [Decimal.units_one]
        exact mul_nonneg (zpow_nonneg (by norm_num) _) cast_one_pos.le
      refine power.trans ?_
      rw [abs_of_nonpos (by linarith), abs_of_nonpos (by linarith)]
      linarith
    · refine power.trans ?_
      rw [abs_of_pos (by linarith), abs_sub_comm]
      exact (power_nearer canonical filled within inside tenth high).trans (le_abs_self _)

private theorem eq_of_contains {m e : Nat} (canonical : Canonical mantissa exponent)
    (canonical' : Canonical m e) (filled : 0 < mantissa) (filled' : 0 < m)
    (inside : (roundingInterval m e).Contains (mantissa * Nat.pow 2 exponent : Nat)) :
    Binary64.finite false mantissa exponent canonical = .finite false m e canonical' := by
  have self := contains_self filled exponent
  rw [← div_one ((mantissa * Nat.pow 2 exponent : Nat) : ℚ), ← Nat.cast_one,
    contains_div_iff (by assumption) Nat.one_pos] at inside self
  rw [← (ofUnits_eq_finite_iff false Nat.one_pos canonical).mpr self]
  exact (ofUnits_eq_finite_iff false Nat.one_pos canonical').mpr inside

end Number

end Binary64

def Decimal.ReadAs (d : Decimal) (x : Binary64) : Prop :=
  Binary64.ofDecimal false d.digits d.scale = x

/-- The decimal is read as the number, none that is has fewer digits, and of those with as many
digits none is nearer to the number. -/
structure Decimal.ShortestFor (d : Decimal) (x : Binary64) : Prop where
  readAs : d.ReadAs x
  fewest : ∀ other : Decimal, other.ReadAs x → d.text.length ≤ other.text.length
  nearest : ∀ other : Decimal, other.ReadAs x → other.text.length = d.text.length →
    |d.units - x.magnitude| ≤ |other.units - x.magnitude|

namespace Binary64

variable {mantissa exponent : Nat}

theorem shortestFor_shortest (canonical : Canonical mantissa exponent) (filled : 0 < mantissa)
    (tie : Tie) :
    (shortest tie mantissa exponent).ShortestFor (.finite false mantissa exponent canonical) := by
  have coarsest := shortest_coarsest canonical filled tie
  have digits := (scale_of_contains canonical filled coarsest.contained).1
  have inside {other : Decimal} (read : other.ReadAs (.finite false mantissa exponent canonical)) :
      (roundingInterval mantissa exponent).Contains other.units :=
    (ofDecimal_eq_finite_iff canonical filled other).mp read
  exact {
    readAs := (ofDecimal_eq_finite_iff canonical filled _).mpr coarsest.contained
    fewest := fun _ read => coarsest.length_text_le digits (inside read)
    nearest := fun _ read same => shortest_nearest canonical filled tie (inside read) same }

theorem le_units_shortest_iff {m e : Nat} {scale : Int} (canonical : Canonical mantissa exponent)
    (filled : 0 < mantissa) (tie : Tie) (canonical' : Canonical m e) (filled' : 0 < m)
    (power : ofDecimal false 1 scale = .finite false m e canonical') :
    Decimal.units ⟨1, scale⟩ ≤ (shortest tie mantissa exponent).units ↔
      m * Nat.pow 2 e ≤ mantissa * Nat.pow 2 exponent := by
  have coarsest := shortest_coarsest canonical filled tie
  have digits := (scale_of_contains canonical filled coarsest.contained).1
  have inside := (ofDecimal_eq_finite_iff canonical' filled' ⟨1, scale⟩).mp power
  have self := contains_self filled exponent
  have self' := contains_self filled' e
  have reads := ofDecimal_eq_finite_iff canonical filled ⟨1, scale⟩
  have same : (roundingInterval m e).Contains (mantissa * Nat.pow 2 exponent : Nat) →
      Binary64.finite false mantissa exponent canonical = .finite false m e canonical' :=
    eq_of_contains canonical canonical' filled filled'
  constructor
  · intro reached
    refine Nat.le_of_not_lt fun less => ?_
    have order : ((mantissa * Nat.pow 2 exponent : Nat) : ℚ) < (m * Nat.pow 2 e : Nat) :=
      Nat.cast_lt.mpr less
    have equal : Binary64.finite false mantissa exponent canonical =
        .finite false m e canonical' := by
      rcases le_or_gt ((mantissa * Nat.pow 2 exponent : Nat) : ℚ) (Decimal.units ⟨1, scale⟩)
        with low | high
      · exact (reads.mpr (self.between coarsest.contained low reached)).symm.trans power
      · exact same (inside.between self' high.le order.le)
    cases equal
    exact Nat.lt_irrefl _ less
  · intro le
    have order : ((m * Nat.pow 2 e : Nat) : ℚ) ≤ (mantissa * Nat.pow 2 exponent : Nat) :=
      Nat.cast_le.mpr le
    refine le_of_not_gt fun short => ?_
    have within : (roundingInterval mantissa exponent).Contains (Decimal.units ⟨1, scale⟩) := by
      rcases le_or_gt (Decimal.units ⟨1, scale⟩) ((mantissa * Nat.pow 2 exponent : Nat) : ℚ)
        with low | high
      · exact coarsest.contained.between self short.le low
      · exact reads.mp (power.trans (same (self'.between inside order high.le)).symm)
    have scales := coarsest.coarsest ⟨1, scale⟩ within
    have first := (zpow_mul_one_le scales).trans (Decimal.le_units digits)
    rw [Decimal.units_one] at short
    exact absurd short (not_lt.mpr first)

end Binary64

end OperatorScript
