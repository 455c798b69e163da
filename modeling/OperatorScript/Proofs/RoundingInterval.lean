import Mathlib.Algebra.Order.Field.Power
import Mathlib.Tactic.FieldSimp
import Mathlib.Tactic.Linarith
import Mathlib.Tactic.Positivity
import OperatorScript.Number.Text
import OperatorScript.Proofs.Exactness

/-!
The values that read back as a given number.

A value is rounded to a positive number exactly if it lies in the rounding interval of the number,
whose ends belong to it if the mantissa is even. The main statement: a decimal reads back as a
positive number exactly if its value lies in the interval.
-/

set_option autoImplicit false
set_option relaxedAutoImplicit false

namespace OperatorScript

namespace Binary64

private theorem nearestEven_eq_iff {den : Nat} (pos : 0 < den) (num n : Nat) :
    nearestEven num den = n ↔
      if n % 2 = 0 then 2 * (n * den) ≤ 2 * num + den ∧ 2 * num ≤ 2 * (n * den) + den
      else 2 * (n * den) < 2 * num + den ∧ 2 * num < 2 * (n * den) + den := by
  have parts : den * (num / den) + num % den = num := Nat.div_add_mod num den
  have rest : num % den < den := Nat.mod_lt num pos
  rw [Nat.mul_comm den] at parts
  unfold nearestEven
  generalize num / den = quotient at *
  generalize num % den = r at *
  have order {a b : Nat} (le : a ≤ b) : a * den ≤ b * den := Nat.mul_le_mul_right den le
  have next (a : Nat) : (a + 1) * den = a * den + den := Nat.succ_mul a den
  rcases Nat.lt_trichotomy n quotient with below | rfl | above
  · have room := order (Nat.succ_le_of_lt below)
    rw [Nat.succ_eq_add_one, next] at room
    grind
  · grind
  · rcases Nat.eq_or_lt_of_le (Nat.succ_le_of_lt above) with rfl | far
    · have step := next quotient
      grind
    · have room := order (Nat.succ_le_of_lt far)
      rw [next, next] at room
      grind

private theorem place_succ (den exponent : Nat) :
    den * Nat.pow 2 (exponent + 1) = 2 * (den * Nat.pow 2 exponent) := by
  rw [show Nat.pow 2 (exponent + 1) = Nat.pow 2 exponent * 2 from rfl]
  ring

private theorem roundingExponent_le_of_lt {num den exponent : Nat}
    (below : num < Nat.pow 2 53 * (den * Nat.pow 2 exponent)) :
    roundingExponent num den ≤ exponent := by
  refine Nat.le_of_not_lt fun above => ?_
  have least := le_of_roundingExponent num den (Nat.ne_zero_of_lt above)
  have twice : den * Nat.pow 2 (exponent + 1) ≤ den * Nat.pow 2 (roundingExponent num den) :=
    Nat.mul_le_mul_left den (Nat.pow_le_pow_right (by decide) above)
  have step := place_succ den exponent
  have powers : Nat.pow 2 52 = 4503599627370496 ∧ Nat.pow 2 53 = 9007199254740992 := by decide
  rw [powers.1] at least
  rw [powers.2] at below
  omega

private theorem le_roundingExponent_of_le {num den exponent : Nat} (pos : 0 < den)
    (filled : Nat.pow 2 52 * (den * Nat.pow 2 exponent) ≤ num) :
    exponent ≤ roundingExponent num den := by
  refine Nat.le_of_not_lt fun below => ?_
  have most := lt_of_roundingExponent pos num
  have twice : den * Nat.pow 2 (roundingExponent num den + 1) ≤ den * Nat.pow 2 exponent :=
    Nat.mul_le_mul_left den (Nat.pow_le_pow_right (by decide) below)
  have step := place_succ den (roundingExponent num den)
  have powers : Nat.pow 2 52 = 4503599627370496 ∧ Nat.pow 2 53 = 9007199254740992 := by decide
  rw [powers.1] at filled
  rw [powers.2] at most
  omega

/-- How far the interval of a number reaches down, in quarters of its last place. -/
def lowerQuarters (mantissa exponent : Nat) : Nat :=
  if mantissa = Nat.pow 2 52 ∧ exponent ≠ 0 then 1 else 2

def Surrounds (mantissa exponent num den : Nat) : Prop :=
  let place := den * Nat.pow 2 exponent
  if mantissa % 2 = 0 then
    4 * (mantissa * place) ≤ 4 * num + lowerQuarters mantissa exponent * place ∧
      4 * num ≤ 4 * (mantissa * place) + 2 * place
  else
    4 * (mantissa * place) < 4 * num + lowerQuarters mantissa exponent * place ∧
      4 * num < 4 * (mantissa * place) + 2 * place

private theorem surrounds_of_carried {num den mantissa exponent : Nat} (pos : 0 < den)
    (parts : carried (roundedMantissa num den) (roundingExponent num den) = (mantissa, exponent)) :
    Surrounds mantissa exponent num den := by
  have most := lt_of_roundingExponent pos num
  have least := le_of_roundingExponent num den
  have place : 0 < den * Nat.pow 2 (roundingExponent num den) :=
    Nat.mul_pos pos (Nat.pow_pos (by decide))
  have rounded := (nearestEven_eq_iff place num (roundedMantissa num den)).mp rfl
  have powers : Nat.pow 2 52 = 4503599627370496 ∧ Nat.pow 2 53 = 9007199254740992 := by decide
  unfold carried at parts
  split at parts
  · next carry =>
    obtain ⟨rfl, rfl⟩ := Prod.mk.inj parts
    simp only [Surrounds, lowerQuarters, place_succ]
    rw [carry] at rounded
    rw [powers.2] at rounded most
    simp only [powers.1]
    grind
  · obtain ⟨rfl, rfl⟩ := Prod.mk.inj parts
    rw [Surrounds]
    by_cases low : roundedMantissa num den = Nat.pow 2 52 ∧ roundingExponent num den ≠ 0
    · -- Just above a power of two no smaller value is rounded to it at this exponent.
      have reached := least low.2
      rw [← low.1] at reached
      rw [lowerQuarters, if_pos low]
      split at rounded <;> split <;> omega
    · rw [lowerQuarters, if_neg low]
      split at rounded <;> split <;> omega

theorem lowerQuarters_le_two (mantissa exponent : Nat) : lowerQuarters mantissa exponent ≤ 2 := by
  unfold lowerQuarters
  split <;> decide

private theorem roundedMantissa_of_surrounds {num den mantissa exponent : Nat}
    (place : 0 < den * Nat.pow 2 exponent) (surrounds : Surrounds mantissa exponent num den)
    (equal : roundingExponent num den = exponent) : roundedMantissa num den = mantissa := by
  rw [roundedMantissa, equal, nearestEven_eq_iff place]
  have quarters := Nat.mul_le_mul_right (den * Nat.pow 2 exponent)
    (lowerQuarters_le_two mantissa exponent)
  rw [Surrounds] at surrounds
  split at surrounds <;> split <;> omega

private theorem mantissa_eq_of_surrounds {num den mantissa exponent : Nat}
    (surrounds : Surrounds mantissa exponent num den) (normal : Nat.pow 2 52 ≤ mantissa)
    (below : num < Nat.pow 2 52 * (den * Nat.pow 2 exponent)) : mantissa = Nat.pow 2 52 := by
  refine Nat.le_antisymm (Nat.le_of_not_lt fun above => ?_) normal
  have wide : lowerQuarters mantissa exponent = 2 := if_neg fun low => above.ne' low.1
  have room := Nat.mul_le_mul_right (den * Nat.pow 2 exponent) (Nat.succ_le_of_lt above)
  rw [Nat.succ_mul] at room
  rw [Surrounds, wide] at surrounds
  split at surrounds <;> omega

private theorem carried_of_surrounds_below {num den lower : Nat} (pos : 0 < den)
    (surrounds : Surrounds (Nat.pow 2 52) (lower + 1) num den)
    (below : num < Nat.pow 2 52 * (den * Nat.pow 2 (lower + 1)))
    (high : roundingExponent num den ≤ lower) :
    carried (roundedMantissa num den) (roundingExponent num den) =
      (Nat.pow 2 52, lower + 1) := by
  have powers : Nat.pow 2 52 = 4503599627370496 ∧ Nat.pow 2 53 = 9007199254740992 := by decide
  have narrow : lowerQuarters (Nat.pow 2 52) (lower + 1) = 1 := if_pos ⟨rfl, Nat.succ_ne_zero _⟩
  rw [Surrounds, narrow, if_pos (by decide), place_succ, powers.1] at surrounds
  rw [place_succ, powers.1] at below
  have equal : roundingExponent num den = lower := by
    refine Nat.le_antisymm high (le_roundingExponent_of_le pos ?_)
    rw [powers.1]
    omega
  have rounded : roundedMantissa num den = Nat.pow 2 53 := by
    have place : 0 < den * Nat.pow 2 lower := Nat.mul_pos pos (Nat.pow_pos (by decide))
    rw [roundedMantissa, equal, nearestEven_eq_iff place, if_pos (by decide), powers.2]
    omega
  rw [rounded, equal, carried, if_pos rfl]

private theorem carried_of_surrounds {num den mantissa exponent : Nat} (pos : 0 < den)
    (canonical : Canonical mantissa exponent)
    (surrounds : Surrounds mantissa exponent num den) :
    carried (roundedMantissa num den) (roundingExponent num den) = (mantissa, exponent) := by
  obtain ⟨short, -, filled⟩ := canonical
  have place : 0 < den * Nat.pow 2 exponent := Nat.mul_pos pos (Nat.pow_pos (by decide))
  have high : roundingExponent num den ≤ exponent := by
    refine roundingExponent_le_of_lt ?_
    have room := Nat.mul_le_mul_right (den * Nat.pow 2 exponent) (Nat.succ_le_of_lt short)
    rw [Nat.succ_mul] at room
    rw [Surrounds] at surrounds
    split at surrounds <;> omega
  rcases Nat.eq_or_lt_of_le high with equal | carry
  · rw [roundedMantissa_of_surrounds place surrounds equal, equal, carried, if_neg short.ne]
  · have normal : Nat.pow 2 52 ≤ mantissa := filled.resolve_left (Nat.ne_zero_of_lt carry)
    have below : num < Nat.pow 2 52 * (den * Nat.pow 2 exponent) := by
      refine Nat.lt_of_not_le fun reached => ?_
      exact absurd (le_roundingExponent_of_le pos reached) (Nat.not_le.mpr carry)
    obtain rfl := mantissa_eq_of_surrounds surrounds normal below
    obtain ⟨lower, rfl⟩ : ∃ lower, exponent = lower + 1 := Nat.exists_eq_succ_of_ne_zero (by omega)
    exact carried_of_surrounds_below pos surrounds below (Nat.le_of_lt_succ carry)

theorem ofUnits_eq_finite_iff (negative : Bool) {num den mantissa exponent : Nat} (pos : 0 < den)
    (canonical : Canonical mantissa exponent) :
    ofUnits negative num den = .finite negative mantissa exponent canonical ↔
      Surrounds mantissa exponent num den := by
  rw [ofUnits_eq_carried]
  dsimp only
  constructor
  · intro eq
    split at eq
    · cases eq
      exact surrounds_of_carried pos rfl
    · cases eq
  · intro surrounds
    have parts := carried_of_surrounds pos canonical surrounds
    simp only [parts, canonical, dif_pos]

def RoundingInterval.Contains (i : RoundingInterval) (units : ℚ) : Prop :=
  if i.closed then (i.low : ℚ) ≤ 4 * units ∧ 4 * units ≤ i.high
  else (i.low : ℚ) < 4 * units ∧ 4 * units < i.high

theorem RoundingInterval.Contains.between {i : RoundingInterval} {a b c : ℚ}
    (first : i.Contains a) (last : i.Contains c) (ab : a ≤ b) (bc : b ≤ c) : i.Contains b := by
  unfold Contains at *
  split at first
  · rw [if_pos (by assumption)] at last ⊢
    constructor <;> linarith
  · rw [if_neg (by assumption)] at last ⊢
    constructor <;> linarith

theorem RoundingInterval.Contains.bounds {i : RoundingInterval} {units : ℚ}
    (contained : i.Contains units) : (i.low : ℚ) ≤ 4 * units ∧ 4 * units ≤ i.high := by
  unfold Contains at contained
  split at contained
  · exact contained
  · exact ⟨contained.1.le, contained.2.le⟩

section Interval

variable {mantissa exponent : Nat}

theorem low_add (filled : 0 < mantissa) (exponent : Nat) :
    (roundingInterval mantissa exponent).low +
        lowerQuarters mantissa exponent * Nat.pow 2 exponent =
      4 * mantissa * Nat.pow 2 exponent := by
  have fits : lowerQuarters mantissa exponent * Nat.pow 2 exponent ≤
      4 * mantissa * Nat.pow 2 exponent := by
    refine Nat.mul_le_mul_right _ ?_
    have := lowerQuarters_le_two mantissa exponent
    omega
  have low : (roundingInterval mantissa exponent).low =
      4 * mantissa * Nat.pow 2 exponent -
        lowerQuarters mantissa exponent * Nat.pow 2 exponent := by
    unfold roundingInterval lowerQuarters
    split <;> simp only [Nat.one_mul]
  rw [low, Nat.sub_add_cancel fits]

theorem high_eq (mantissa exponent : Nat) : (roundingInterval mantissa exponent).high =
    4 * mantissa * Nat.pow 2 exponent + 2 * Nat.pow 2 exponent := rfl

private theorem closed_iff :
    (roundingInterval mantissa exponent).closed = true ↔ mantissa % 2 = 0 :=
  beq_iff_eq

theorem contains_div_iff (filled : 0 < mantissa) {num den : Nat} (pos : 0 < den) :
    (roundingInterval mantissa exponent).Contains ((num : ℚ) / den) ↔
      Surrounds mantissa exponent num den := by
  have positive : (0 : ℚ) < den := by exact_mod_cast pos
  have scale : 4 * ((num : ℚ) / den) = (4 * num : Nat) / den := by
    push_cast
    ring
  have low := congrArg (· * den) (low_add filled exponent)
  have high := congrArg (· * den) (high_eq mantissa exponent)
  have middle : 4 * mantissa * Nat.pow 2 exponent * den =
      4 * (mantissa * (den * Nat.pow 2 exponent)) := by ring
  have quarters (n : Nat) : n * Nat.pow 2 exponent * den = n * (den * Nat.pow 2 exponent) := by ring
  simp only [Nat.add_mul, middle, quarters] at low high
  rw [RoundingInterval.Contains, Surrounds, scale]
  simp only [closed_iff, le_div_iff₀ positive, div_le_iff₀ positive, lt_div_iff₀ positive,
    div_lt_iff₀ positive]
  norm_cast
  split <;> omega

private theorem two_le_lowerQuarters_mul (mantissa exponent : Nat) :
    2 ≤ lowerQuarters mantissa exponent * Nat.pow 2 exponent := by
  have place : 0 < Nat.pow 2 exponent := Nat.pow_pos (by decide)
  unfold lowerQuarters
  split
  · next narrow =>
    have even : Nat.pow 2 1 ≤ Nat.pow 2 exponent :=
      Nat.pow_le_pow_right (by decide) (Nat.one_le_iff_ne_zero.mpr narrow.2)
    rwa [Nat.one_mul]
  · omega

theorem contains_of_close (filled : 0 < mantissa) {units : ℚ}
    (near : (mantissa * Nat.pow 2 exponent : Nat) - 1 / 2 < units)
    (below : units ≤ (mantissa * Nat.pow 2 exponent : Nat)) :
    (roundingInterval mantissa exponent).Contains units := by
  have place : 0 < Nat.pow 2 exponent := Nat.pow_pos (by decide)
  have ends := low_add filled exponent
  have reach := two_le_lowerQuarters_mul mantissa exponent
  have low : ((roundingInterval mantissa exponent).low + 2 : Nat) ≤
      ((4 * (mantissa * Nat.pow 2 exponent) : Nat) : ℚ) := by
    rw [Nat.cast_le, ← Nat.mul_assoc]
    omega
  have high : ((4 * (mantissa * Nat.pow 2 exponent) : Nat) : ℚ) <
      (roundingInterval mantissa exponent).high := by
    rw [Nat.cast_lt, high_eq, ← Nat.mul_assoc]
    omega
  rw [Nat.cast_add] at low
  rw [Nat.cast_mul] at low high
  simp only [Nat.cast_ofNat] at low high
  unfold RoundingInterval.Contains
  split <;> constructor <;> linarith

theorem contains_self (filled : 0 < mantissa) (exponent : Nat) :
    (roundingInterval mantissa exponent).Contains (mantissa * Nat.pow 2 exponent : Nat) :=
  contains_of_close filled (sub_lt_self _ (by norm_num)) le_rfl

private theorem half_le_of_contains (filled : 0 < mantissa) {units : ℚ}
    (contained : (roundingInterval mantissa exponent).Contains units) : 1 / 2 ≤ units := by
  have low : 2 ≤ (roundingInterval mantissa exponent).low := by
    have place : 0 < Nat.pow 2 exponent := Nat.pow_pos (by decide)
    have ends := low_add filled exponent
    have room : (lowerQuarters mantissa exponent + 2) * Nat.pow 2 exponent ≤
        4 * mantissa * Nat.pow 2 exponent := by
      refine Nat.mul_le_mul_right _ ?_
      have := lowerQuarters_le_two mantissa exponent
      omega
    rw [Nat.add_mul] at room
    omega
  have cast : ((2 : Nat) : ℚ) ≤ (roundingInterval mantissa exponent).low := Nat.cast_le.mpr low
  have := contained.bounds.1
  push_cast at cast
  linarith

private theorem lt_of_contains (canonical : Canonical mantissa exponent) {units : ℚ}
    (contained : (roundingInterval mantissa exponent).Contains units) :
    units < (10 : ℚ) ^ 309 * one := by
  obtain ⟨short, most, -⟩ := canonical
  have limit : Nat.pow 2 53 * Nat.pow 2 2045 < Nat.pow 10 309 * one := by decide +kernel
  -- The exponents get names, since their powers would be computed otherwise.
  generalize 2045 = greatest at most limit
  generalize 309 = places at limit ⊢
  have high : (roundingInterval mantissa exponent).high < 4 * (Nat.pow 10 places * one) := by
    have mantissas : (mantissa + 1) * Nat.pow 2 exponent ≤ Nat.pow 2 53 * Nat.pow 2 greatest :=
      Nat.mul_le_mul short (Nat.pow_le_pow_right (by decide) most)
    rw [Nat.add_mul, Nat.one_mul] at mantissas
    rw [high_eq, Nat.mul_assoc]
    omega
  have cast : ((roundingInterval mantissa exponent).high : ℚ) <
      (4 * (Nat.pow 10 places * one) : Nat) := Nat.cast_lt.mpr high
  have := contained.bounds.2
  rw [Nat.pow_eq] at cast
  push_cast at cast
  linarith

end Interval

theorem zpow_neg_mul_lt {unit places num den : Nat} (pos : 0 < den)
    (small : den * unit < num * 10 ^ places) :
    (10 : ℚ) ^ (-(places : ℤ)) * unit < num / den := by
  have cast : (den : ℚ) * unit < num * (10 : ℚ) ^ places := by exact_mod_cast small
  rw [zpow_neg, zpow_natCast, inv_mul_lt_iff₀ (pow_pos (by norm_num) _), mul_div_assoc',
    lt_div_iff₀ (Nat.cast_pos.mpr pos)]
  linarith

theorem zpow_mul_one_lt_half : (10 : ℚ) ^ (-((324 : Nat) : ℤ)) * one < 1 / 2 := by
  have limit : 2 * one < 1 * 10 ^ 324 := by decide +kernel
  generalize 324 = places at limit ⊢
  exact_mod_cast zpow_neg_mul_lt (by decide) limit

theorem cast_one_pos : (0 : ℚ) < (one : ℚ) := Nat.cast_pos.mpr one_pos

theorem zpow_mul_one_le {low high : Int} (le : low ≤ high) :
    (10 : ℚ) ^ low * one ≤ (10 : ℚ) ^ high * one :=
  mul_le_mul_of_nonneg_right (zpow_le_zpow_right₀ (by norm_num) le) cast_one_pos.le

end Binary64

namespace Decimal

def units (d : Decimal) : ℚ := d.digits * (10 : ℚ) ^ d.scale * Binary64.one

theorem units_of_scale_nonneg (digits places : Nat) :
    units ⟨digits, places⟩ = ((digits * Nat.pow 10 places * Binary64.one : Nat) : ℚ) := by
  rw [units, zpow_natCast, Nat.pow_eq]
  push_cast
  rfl

private theorem units_of_scale_neg (digits places : Nat) :
    units ⟨digits, -places⟩ = ((digits * Binary64.one : Nat) : ℚ) / (Nat.pow 10 places : Nat) := by
  rw [units, zpow_neg, zpow_natCast, Nat.pow_eq]
  generalize Binary64.one = unit
  push_cast
  field_simp

theorem le_units {d : Decimal} (filled : d.digits ≠ 0) :
    (10 : ℚ) ^ d.scale * Binary64.one ≤ d.units := by
  have digits : (1 : ℚ) ≤ d.digits := by exact_mod_cast Nat.one_le_iff_ne_zero.mpr filled
  have power : (0 : ℚ) ≤ (10 : ℚ) ^ d.scale * Binary64.one :=
    mul_nonneg (zpow_nonneg (by norm_num) _) (Nat.cast_nonneg _)
  rw [units, mul_assoc]
  exact le_mul_of_one_le_left power digits

theorem units_lt {d : Decimal} {places : Nat} (short : d.digits < 10 ^ places) :
    d.units < (10 : ℚ) ^ (places + d.scale) * Binary64.one := by
  have digits : (d.digits : ℚ) < (10 : ℚ) ^ (places : ℤ) := by
    rw [zpow_natCast]
    exact_mod_cast short
  have power : (0 : ℚ) < (10 : ℚ) ^ d.scale := zpow_pos (by norm_num) _
  rw [units, zpow_add₀ (by norm_num)]
  exact mul_lt_mul_of_pos_right (mul_lt_mul_of_pos_right digits power) Binary64.cast_one_pos

end Decimal

namespace Binary64

variable {mantissa exponent : Nat}

theorem scale_of_contains (canonical : Canonical mantissa exponent) (filled : 0 < mantissa)
    {d : Decimal} (contained : (roundingInterval mantissa exponent).Contains d.units) :
    d.digits ≠ 0 ∧ d.scale < 309 ∧ -d.scale ≤ 400 + (Nat.log2 d.digits : Int) := by
  have least := half_le_of_contains filled contained
  have most := lt_of_contains canonical contained
  have digits : d.digits ≠ 0 := by
    intro none
    rw [Decimal.units, none, Nat.cast_zero, zero_mul, zero_mul] at least
    norm_num at least
  refine ⟨digits, ?_, ?_⟩
  · have reached := (Decimal.le_units digits).trans_lt most
    rw [mul_lt_mul_iff_left₀ cast_one_pos, ← zpow_natCast] at reached
    exact (zpow_lt_zpow_iff_right₀ (by norm_num)).mp reached
  · refine Int.not_lt.mp fun small => ?_
    have short : d.digits < 10 ^ (Nat.log2 d.digits + 1) :=
      Nat.lt_log2_self.trans_le (Nat.pow_le_pow_left (by decide) _)
    have place : (Nat.log2 d.digits + 1 : Nat) + d.scale ≤ -((324 : Nat) : Int) := by omega
    have above := (Decimal.units_lt short).trans_le (zpow_mul_one_le place)
    exact absurd (above.trans zpow_mul_one_lt_half) (not_lt.mpr least)

/-- A decimal reads back as a positive number exactly if its value lies in the interval of the
number. -/
theorem ofDecimal_eq_finite_iff (canonical : Canonical mantissa exponent) (filled : 0 < mantissa)
    (d : Decimal) :
    ofDecimal false d.digits d.scale = .finite false mantissa exponent canonical ↔
      (roundingInterval mantissa exponent).Contains d.units := by
  have scale := scale_of_contains canonical filled (d := d)
  unfold ofDecimal
  split
  · next none =>
    refine iff_of_false (fun zero => ?_) fun contained => (scale contained).1 none
    cases zero
    exact Nat.lt_irrefl 0 filled
  split
  · next whole =>
    obtain ⟨places, eq⟩ := Int.eq_ofNat_of_zero_le whole
    obtain ⟨digits, _⟩ := d
    subst eq
    split
    · next large =>
      refine iff_of_false (fun infinite => by cases infinite) fun contained => ?_
      have := (scale contained).2.1
      omega
    · rw [ofUnits_eq_finite_iff false Nat.one_pos, ← contains_div_iff filled Nat.one_pos,
        Decimal.units_of_scale_nonneg, Nat.cast_one, div_one]
      rfl
  · next fractional =>
    split
    · next small =>
      refine iff_of_false (fun zero => ?_) fun contained => ?_
      · cases zero
        exact Nat.lt_irrefl 0 filled
      · have := (scale contained).2.2
        omega
    · obtain ⟨places, eq⟩ := Int.exists_eq_neg_ofNat (Int.le_of_not_le fractional)
      obtain ⟨digits, _⟩ := d
      subst eq
      have power : 0 < Nat.pow 10 (- -(places : Int)).toNat := Nat.pow_pos (by decide)
      rw [ofUnits_eq_finite_iff false power, ← contains_div_iff filled power,
        Decimal.units_of_scale_neg, Int.neg_neg, Int.toNat_natCast]

end Binary64

end OperatorScript
