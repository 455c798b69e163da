import Mathlib.Tactic.Ring
import OperatorScript.Number.Arithmetic

/-!
Rounding: what becomes of an exact value.

A value is rounded at the exponent at which its mantissa has 53 bits. The main statement: a sum of
finite numbers is finite exactly if the exact sum lies below the middle between the greatest finite
number and the power of two after it.
-/

set_option autoImplicit false
set_option relaxedAutoImplicit false

namespace OperatorScript.Binary64

/-- The middle, in units, between the greatest number with an exponent one above the given one and
the power of two that follows it. -/
def middleAfter (exponent : Nat) : Nat := (Nat.pow 2 54 - 1) * Nat.pow 2 exponent

/-- The least magnitude, in units, that is rounded to infinity: the middle after the greatest finite
number, since the mantissa of that number is odd and a tie goes to the even one. -/
def overflow : Nat := middleAfter 2044

private theorem middleAfter_pos (exponent : Nat) : 0 < middleAfter exponent :=
  Nat.mul_pos (by decide) (Nat.pow_pos (by decide))

def roundingExponent (num den : Nat) : Nat := Nat.log2 (num / den) - 52

private theorem nearestEven_cases (num den : Nat) :
    nearestEven num den = num / den ∨ nearestEven num den = num / den + 1 := by
  unfold nearestEven
  grind

private theorem nearestEven_le_iff {half n : Nat} (pos : 0 < half) (odd : n % 2 = 1) (num : Nat) :
    nearestEven num (2 * half) ≤ n ↔ num < (2 * n + 1) * half := by
  have parts : 2 * half * (num / (2 * half)) + num % (2 * half) = num := Nat.div_add_mod num _
  have rest : num % (2 * half) < 2 * half := Nat.mod_lt num (by omega)
  have middle : (2 * n + 1) * half = 2 * half * n + half := by ring
  rw [middle]
  rcases Nat.lt_trichotomy (num / (2 * half)) n with below | equal | above
  · have room : 2 * half * (num / (2 * half) + 1) ≤ 2 * half * n := Nat.mul_le_mul_left _ below
    rw [Nat.mul_succ] at room
    have := nearestEven_cases num (2 * half)
    omega
  · have up : nearestEven num (2 * half) = n + 1 ↔ half ≤ num % (2 * half) := by
      unfold nearestEven
      grind
    have := nearestEven_cases num (2 * half)
    rw [equal] at parts this
    omega
  · have room : 2 * half * (n + 1) ≤ 2 * half * (num / (2 * half)) := Nat.mul_le_mul_left _ above
    rw [Nat.mul_succ] at room
    have := nearestEven_cases num (2 * half)
    omega

theorem lt_of_roundingExponent {den : Nat} (pos : 0 < den) (num : Nat) :
    num < Nat.pow 2 53 * (den * Nat.pow 2 (roundingExponent num den)) := by
  have digits : num / den < Nat.pow 2 (Nat.log2 (num / den) + 1) := Nat.lt_log2_self
  have room : Nat.log2 (num / den) + 1 ≤ 53 + roundingExponent num den := by
    unfold roundingExponent
    omega
  have bound : num / den < Nat.pow 2 (53 + roundingExponent num den) :=
    Nat.lt_of_lt_of_le digits (Nat.pow_le_pow_right (by decide) room)
  have split : Nat.pow 2 (53 + roundingExponent num den) =
      Nat.pow 2 53 * Nat.pow 2 (roundingExponent num den) := Nat.pow_add 2 53 _
  rw [split, Nat.div_lt_iff_lt_mul pos] at bound
  rwa [Nat.mul_comm den, ← Nat.mul_assoc]

theorem le_of_roundingExponent (num den : Nat) (above : roundingExponent num den ≠ 0) :
    Nat.pow 2 52 * (den * Nat.pow 2 (roundingExponent num den)) ≤ num := by
  have exact : Nat.log2 (num / den) = 52 + roundingExponent num den := by
    unfold roundingExponent at above ⊢
    omega
  have filled : num / den ≠ 0 := by
    intro zero
    have none : Nat.log2 (num / den) = 0 := by
      rw [zero]
      decide
    omega
  have digits : Nat.pow 2 (52 + roundingExponent num den) ≤ num / den := by
    rw [← exact]
    exact Nat.log2_self_le filled
  have split : Nat.pow 2 (52 + roundingExponent num den) =
      Nat.pow 2 52 * Nat.pow 2 (roundingExponent num den) := Nat.pow_add 2 52 _
  rw [split] at digits
  calc Nat.pow 2 52 * (den * Nat.pow 2 (roundingExponent num den))
      = den * (Nat.pow 2 52 * Nat.pow 2 (roundingExponent num den)) := Nat.mul_left_comm _ _ _
    _ ≤ den * (num / den) := Nat.mul_le_mul_left den digits
    _ ≤ num := Nat.mul_div_le num den

def roundedMantissa (num den : Nat) : Nat :=
  nearestEven num (den * Nat.pow 2 (roundingExponent num den))

private theorem roundedMantissa_le {den : Nat} (pos : 0 < den) (num : Nat) :
    roundedMantissa num den ≤ Nat.pow 2 53 := by
  have scaled : 0 < den * Nat.pow 2 (roundingExponent num den) :=
    Nat.mul_pos pos (Nat.pow_pos (by decide))
  have below : num / (den * Nat.pow 2 (roundingExponent num den)) < Nat.pow 2 53 :=
    (Nat.div_lt_iff_lt_mul scaled).mpr (lt_of_roundingExponent pos num)
  unfold roundedMantissa
  have := nearestEven_cases num (den * Nat.pow 2 (roundingExponent num den))
  omega

theorem le_roundedMantissa {den : Nat} (pos : 0 < den) (num : Nat)
    (above : roundingExponent num den ≠ 0) : Nat.pow 2 52 ≤ roundedMantissa num den := by
  have scaled : 0 < den * Nat.pow 2 (roundingExponent num den) :=
    Nat.mul_pos pos (Nat.pow_pos (by decide))
  have least : Nat.pow 2 52 ≤ num / (den * Nat.pow 2 (roundingExponent num den)) :=
    (Nat.le_div_iff_mul_le scaled).mpr (le_of_roundingExponent num den above)
  unfold roundedMantissa
  have := nearestEven_cases num (den * Nat.pow 2 (roundingExponent num den))
  omega

def carried (mantissa exponent : Nat) : Nat × Nat :=
  if mantissa = Nat.pow 2 53 then (Nat.pow 2 52, exponent + 1) else (mantissa, exponent)

theorem ofUnits_eq_carried (negative : Bool) (num den : Nat) :
    ofUnits negative num den =
      let parts := carried (roundedMantissa num den) (roundingExponent num den)
      if canonical : Canonical parts.1 parts.2 then .finite negative parts.1 parts.2 canonical
      else .infinite negative := by
  rfl

private theorem isFinite_ofUnits_eq (negative : Bool) (num den : Nat) :
    (ofUnits negative num den).isFinite =
      let parts := carried (roundedMantissa num den) (roundingExponent num den)
      decide (Canonical parts.1 parts.2) := by
  rw [ofUnits_eq_carried]
  dsimp only
  split
  · next canonical => exact (decide_eq_true canonical).symm
  · next failed => exact (decide_eq_false failed).symm

private theorem isFinite_ofUnits_iff_exponent (negative : Bool) {den : Nat} (pos : 0 < den)
    (num : Nat) :
    (ofUnits negative num den).isFinite = true ↔
      roundingExponent num den ≤ 2044 ∨
        roundingExponent num den = 2045 ∧ roundedMantissa num den ≠ Nat.pow 2 53 := by
  have most := roundedMantissa_le pos num
  have least := le_roundedMantissa pos num
  have fill : Nat.pow 2 52 < Nat.pow 2 53 := by decide
  rw [isFinite_ofUnits_eq, decide_eq_true_iff, Canonical, carried]
  generalize roundingExponent num den = exponent at *
  generalize roundedMantissa num den = mantissa at *
  by_cases carry : mantissa = Nat.pow 2 53
  · simp only [carry, if_true]
    omega
  · simp only [carry, if_false]
    omega

private theorem roundingExponent_le_iff {den : Nat} (pos : 0 < den) (num top : Nat) :
    (roundingExponent num den ≤ top ∨
        roundingExponent num den = top + 1 ∧ roundedMantissa num den ≠ Nat.pow 2 53) ↔
      num < den * middleAfter top := by
  have limit : den * middleAfter top =
      (2 * (Nat.pow 2 53 - 1) + 1) * (den * Nat.pow 2 top) := Nat.mul_left_comm den _ _
  have half : 0 < den * Nat.pow 2 top := Nat.mul_pos pos (Nat.pow_pos (by decide))
  have least := le_of_roundingExponent num den
  have most := lt_of_roundingExponent pos num
  have step (exponent : Nat) :
      den * Nat.pow 2 (exponent + 1) = 2 * (den * Nat.pow 2 exponent) := by
    rw [show Nat.pow 2 (exponent + 1) = Nat.pow 2 exponent * 2 from rfl]
    ring
  have order {low high : Nat} (le : low ≤ high) : den * Nat.pow 2 low ≤ den * Nat.pow 2 high :=
    Nat.mul_le_mul_left den (Nat.pow_le_pow_right (by decide) le)
  have powers : Nat.pow 2 52 = 4503599627370496 ∧ Nat.pow 2 53 = 9007199254740992 := by decide
  rcases Nat.lt_trichotomy (roundingExponent num den) (top + 1) with small | equal | large
  · have scaled := order (Nat.le_of_lt_succ small)
    rw [limit]
    rw [powers.2] at most ⊢
    omega
  · have rounded := nearestEven_le_iff half (n := Nat.pow 2 53 - 1) (by decide) num
    have carry := roundedMantissa_le pos num
    rw [limit]
    rw [roundedMantissa, equal, step] at carry ⊢
    rw [powers.2] at rounded carry ⊢
    omega
  · have scaled := order large
    rw [step (top + 1), step top] at scaled
    have reached := least (by omega)
    rw [limit]
    rw [powers.1] at reached
    rw [powers.2]
    omega

private theorem isFinite_ofUnits_iff (negative : Bool) {den : Nat} (pos : 0 < den) (num : Nat) :
    (ofUnits negative num den).isFinite = true ↔ num < den * overflow :=
  (isFinite_ofUnits_iff_exponent negative pos num).trans (roundingExponent_le_iff pos num 2044)

private theorem mul_pow_lt_middleAfter {n bits exponent top : Nat} (small : n < Nat.pow 2 bits)
    (fits : bits + exponent ≤ top) : n * Nat.pow 2 exponent < middleAfter top := by
  calc n * Nat.pow 2 exponent
      < Nat.pow 2 bits * Nat.pow 2 exponent :=
        Nat.mul_lt_mul_of_pos_right small (Nat.pow_pos (by decide))
    _ = Nat.pow 2 (bits + exponent) := (Nat.pow_add 2 bits exponent).symm
    _ ≤ Nat.pow 2 top := Nat.pow_le_pow_right (by decide) fits
    _ ≤ middleAfter top := Nat.le_mul_of_pos_left _ (by decide)

theorem isFinite_ofInt {i : Int} (small : i.natAbs < Nat.pow 2 65) :
    (ofInt i).isFinite = true := by
  refine (isFinite_ofUnits_iff _ (by decide) _).mpr ?_
  rw [Nat.one_mul]
  unfold one
  -- The exponent of the unit gets a name, since its power would be computed otherwise.
  generalize unit : 1074 = exponent
  exact mul_pow_lt_middleAfter small (by omega)

theorem exists_units_of_isFinite {x : Binary64} (finite : x.isFinite = true) :
    ∃ units, x.units? = some units := by
  cases x with
  | finite => exact ⟨_, rfl⟩
  | nan | infinite => cases finite

theorem exists_add_eq {x y : Binary64} {u v : Int} (first : x.units? = some u)
    (second : y.units? = some v) :
    ∃ negative, x + y =
      if u + v = 0 then zero negative else ofUnits (decide (u + v < 0)) (u + v).natAbs 1 := by
  cases x with
  | nan | infinite => cases first
  | finite s m e =>
    cases y with
    | nan | infinite => cases second
    | finite t n f =>
      obtain rfl := Option.some.inj first
      obtain rfl := Option.some.inj second
      exact ⟨s && t, rfl⟩

/-- A sum of finite numbers is finite exactly if the exact sum lies below the overflow. -/
theorem isFinite_add_iff {x y : Binary64} {u v : Int} (first : x.units? = some u)
    (second : y.units? = some v) :
    (x + y).isFinite = true ↔ (u + v).natAbs < overflow := by
  obtain ⟨negative, sum⟩ := exists_add_eq first second
  rw [sum]
  split
  · next zero =>
    rw [zero]
    exact iff_of_true rfl (middleAfter_pos 2044)
  · rw [isFinite_ofUnits_iff _ (by decide), Nat.one_mul]

end OperatorScript.Binary64
