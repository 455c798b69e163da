import Mathlib.Data.List.TakeWhile
import OperatorScript.Json.Value
import OperatorScript.Number.Reading
import OperatorScript.Proofs.Rounding

/-!
Exact values: those that rounding leaves as they are.

A value whose mantissa has at most 53 bits is not rounded. The main statements: an integer below
`2 ^ 53` in magnitude is held exactly, whether it is converted, read from decimal digits, or the sum
of two such integers; and a number that holds such an integer is stored as this integer.
-/

set_option autoImplicit false
set_option relaxedAutoImplicit false

namespace OperatorScript

namespace Binary64

private theorem nearestEven_mul (n : Nat) {den : Nat} (pos : 0 < den) :
    nearestEven (n * den) den = n := by
  simp [nearestEven, Nat.mul_div_cancel n pos, pos]

private theorem roundingExponent_le {mantissa : Nat} (small : mantissa < Nat.pow 2 53)
    (exponent : Nat) :
    roundingExponent (mantissa * Nat.pow 2 exponent) 1 ≤ exponent := by
  unfold roundingExponent
  rw [Nat.div_one]
  by_cases zero : mantissa = 0
  · simp [zero]
  · have positive : mantissa * Nat.pow 2 exponent ≠ 0 :=
      Nat.mul_ne_zero zero (Nat.pow_pos (by decide)).ne'
    have bound : mantissa * Nat.pow 2 exponent < 2 ^ (53 + exponent) := by
      rw [Nat.pow_add]
      exact Nat.mul_lt_mul_of_pos_right small (Nat.pow_pos (by decide))
    have digits := (Nat.log2_lt positive).mpr bound
    omega

private theorem ofUnits_eq_finite {negative : Bool} {num den : Nat}
    (uncarried : roundedMantissa num den ≠ Nat.pow 2 53)
    (canonical : Canonical (roundedMantissa num den) (roundingExponent num den)) :
    ofUnits negative num den =
      .finite negative (roundedMantissa num den) (roundingExponent num den) canonical := by
  have parts : carried (roundedMantissa num den) (roundingExponent num den) =
      (roundedMantissa num den, roundingExponent num den) := if_neg uncarried
  rw [ofUnits_eq_carried]
  simp only [parts, canonical, dif_pos]

private theorem roundedMantissa_of_multiple {num quotient : Nat}
    (multiple : num = quotient * Nat.pow 2 (roundingExponent num 1)) :
    roundedMantissa num 1 = quotient := by
  have place : 0 < Nat.pow 2 (roundingExponent num 1) := Nat.pow_pos (by decide)
  calc roundedMantissa num 1
      = nearestEven num (Nat.pow 2 (roundingExponent num 1)) := by rw [roundedMantissa, Nat.one_mul]
    _ = nearestEven (quotient * Nat.pow 2 (roundingExponent num 1))
          (Nat.pow 2 (roundingExponent num 1)) := congrArg (nearestEven · _) multiple
    _ = quotient := nearestEven_mul quotient place

private theorem exists_multiple {mantissa : Nat} (small : mantissa < Nat.pow 2 53)
    (exponent : Nat) :
    let num := mantissa * Nat.pow 2 exponent
    ∃ quotient, num = quotient * Nat.pow 2 (roundingExponent num 1) := by
  intro num
  obtain ⟨more, split⟩ := Nat.exists_eq_add_of_le (roundingExponent_le small exponent)
  refine ⟨mantissa * Nat.pow 2 more, ?_⟩
  have power : Nat.pow 2 exponent = Nat.pow 2 (roundingExponent num 1) * Nat.pow 2 more :=
    (congrArg (Nat.pow 2) split).trans (Nat.pow_add 2 _ more)
  calc mantissa * Nat.pow 2 exponent
      = mantissa * (Nat.pow 2 (roundingExponent num 1) * Nat.pow 2 more) := by rw [power]
    _ = mantissa * Nat.pow 2 more * Nat.pow 2 (roundingExponent num 1) := by ring

theorem units?_ofUnits {mantissa exponent : Nat} (small : mantissa < Nat.pow 2 53)
    (inRange : exponent ≤ 2045) (negative : Bool) :
    (ofUnits negative (mantissa * Nat.pow 2 exponent) 1).units? =
      some (if negative then -((mantissa * Nat.pow 2 exponent : Nat) : Int)
        else (mantissa * Nat.pow 2 exponent : Nat)) := by
  have low := (roundingExponent_le small exponent).trans inRange
  obtain ⟨quotient, multiple⟩ := exists_multiple small exponent
  generalize mantissa * Nat.pow 2 exponent = num at low multiple ⊢
  have rounded := roundedMantissa_of_multiple multiple
  have least := le_roundedMantissa Nat.one_pos num
  have short : roundedMantissa num 1 < Nat.pow 2 53 := by
    have below := lt_of_roundingExponent Nat.one_pos num
    rw [Nat.one_mul] at below
    rw [rounded]
    exact Nat.lt_of_mul_lt_mul_right (lt_of_eq_of_lt multiple.symm below)
  have canonical : Canonical (roundedMantissa num 1) (roundingExponent num 1) :=
    ⟨short, low, (Nat.eq_zero_or_pos _).imp_right fun above => least above.ne'⟩
  rw [ofUnits_eq_finite short.ne canonical]
  simp only [units?, rounded, ← multiple]

private theorem isZero_ofUnits_iff (negative : Bool) (num : Nat) :
    (ofUnits negative num 1).isZero = true ↔ num = 0 := by
  constructor
  · intro zero
    refine Decidable.byContradiction fun filled => ?_
    have rounded : roundedMantissa num 1 ≠ 0 := by
      by_cases least : roundingExponent num 1 = 0
      · have multiple : num = num * Nat.pow 2 (roundingExponent num 1) := by
          rw [least, Nat.pow_eq, Nat.pow_zero, Nat.mul_one]
        rwa [roundedMantissa_of_multiple multiple]
      · exact (Nat.lt_of_lt_of_le (by decide) (le_roundedMantissa Nat.one_pos num least)).ne'
    have mantissa : (carried (roundedMantissa num 1) (roundingExponent num 1)).1 ≠ 0 := by
      unfold carried
      split
      · exact (Nat.pow_pos (by decide)).ne'
      · exact rounded
    rw [ofUnits_eq_carried] at zero
    dsimp only at zero
    split at zero
    · exact mantissa (by simpa [isZero] using zero)
    · cases zero
  · rintro rfl
    cases negative <;> rfl

theorem one_pos : 0 < one := by
  unfold one
  -- The exponent of the unit gets a name, since its power would be computed otherwise.
  generalize 1074 = exponent
  exact Nat.pow_pos (by decide)

theorem isZero_ofInt_iff {i : Int} : (ofInt i).isZero = true ↔ i = 0 := by
  rw [ofInt, isZero_ofUnits_iff, Nat.mul_eq_zero, Int.natAbs_eq_zero]
  exact or_iff_left one_pos.ne'

def HoldsInt (x : Binary64) (i : Int) : Prop := x.units? = some (i * (one : Int))

private theorem holdsInt_zero (negative : Bool) : (zero negative).HoldsInt 0 := by
  unfold HoldsInt
  rw [Int.zero_mul]
  cases negative <;> rfl

private theorem holdsInt_ofUnits {n : Nat} (small : n < Nat.pow 2 53) (negative : Bool) :
    (ofUnits negative (n * one) 1).HoldsInt (if negative then -(n : Int) else n) := by
  unfold HoldsInt one
  generalize unit : 1074 = exponent
  rw [units?_ofUnits small (by omega)]
  cases negative with
  | true => simp only [if_true, Int.natCast_mul, Int.neg_mul]
  | false => simp only [Bool.false_eq_true, if_false, Int.natCast_mul]

theorem holdsInt_ofInt {i : Int} (small : i.natAbs < Nat.pow 2 53) : (ofInt i).HoldsInt i := by
  have exact := holdsInt_ofUnits small (decide (i < 0))
  have sign : (if decide (i < 0) then -(i.natAbs : Int) else i.natAbs) = i := by grind
  rwa [sign] at exact

private theorem holdsInt_ofDecimal {digits : Nat} (small : digits < Nat.pow 2 53)
    (negative : Bool) :
    (ofDecimal negative digits 0).HoldsInt (if negative then -(digits : Int) else digits) := by
  unfold ofDecimal
  split
  · next none =>
    subst none
    have exact := holdsInt_zero negative
    cases negative <;> exact exact
  · have units : digits * Nat.pow 10 (0 : Int).toNat * one = digits * one := by
      rw [show Nat.pow 10 (0 : Int).toNat = 1 from rfl, Nat.mul_one]
    rw [if_pos (Int.le_refl 0), if_neg (by decide), units]
    exact holdsInt_ofUnits small negative

theorem HoldsInt.add {x y : Binary64} {i j : Int} (first : x.HoldsInt i) (second : y.HoldsInt j)
    (small : (i + j).natAbs < Nat.pow 2 53) : (x + y).HoldsInt (i + j) := by
  obtain ⟨negative, sum⟩ := exists_add_eq first second
  have positive : (0 : Int) < (one : Int) := Int.natCast_pos.mpr one_pos
  have units : i * (one : Int) + j * (one : Int) = (i + j) * (one : Int) := (Int.add_mul ..).symm
  rw [sum, units]
  split
  · next zero =>
    rw [(Int.mul_eq_zero.mp zero).resolve_right positive.ne']
    exact holdsInt_zero negative
  · have sign : (i + j) * (one : Int) < 0 ↔ i + j < 0 := by
      rw [← Int.zero_mul (one : Int), Int.mul_lt_mul_right positive, Int.zero_mul]
    simp only [sign, Int.natAbs_mul, Int.natAbs_natCast]
    exact holdsInt_ofInt small

theorem HoldsInt.toInt? {x : Binary64} {i : Int} (holds : x.HoldsInt i) : x.toInt? = some i := by
  have positive : (one : Int) ≠ 0 := (Int.natCast_pos.mpr one_pos).ne'
  unfold Binary64.toInt?
  rw [holds]
  simp only [Int.mul_emod_left, if_true, Int.mul_ediv_cancel _ positive]

/-- A word of decimal digits, with or without a sign, stands for an integer. -/
inductive WritesInt : List Char → Int → Prop
  | bare {digits : List Char} (filled : digits ≠ []) (plain : ∀ c ∈ digits, c.isDigit = true) :
      WritesInt digits (natOfDigits digits)
  | plus {digits : List Char} (filled : digits ≠ []) (plain : ∀ c ∈ digits, c.isDigit = true) :
      WritesInt ('+' :: digits) (natOfDigits digits)
  | minus {digits : List Char} (filled : digits ≠ []) (plain : ∀ c ∈ digits, c.isDigit = true) :
      WritesInt ('-' :: digits) (-(natOfDigits digits : Int))

private theorem readUnsigned?_of_digits {digits : List Char} (filled : digits ≠ [])
    (plain : ∀ c ∈ digits, c.isDigit = true) (negative : Bool) :
    readUnsigned? negative digits = some (ofDecimal negative (natOfDigits digits) 0) := by
  have taken : takeDigits digits = (digits, []) := by
    simp [takeDigits, List.takeWhile_eq_self_iff.mpr plain, List.dropWhile_eq_nil_iff.mpr plain]
  simp [readUnsigned?, taken, filled]

private theorem toLower_of_isDigit {c : Char} (digit : c.isDigit = true) : c.toLower = c := by
  have below : ¬ (65 ≤ c.val ∧ c.val ≤ 90) := by
    simp only [Char.isDigit, Bool.and_eq_true, decide_eq_true_eq, UInt32.le_iff_toNat_le] at digit ⊢
    grind
  exact dif_neg below

private theorem read?_of_digits {s : String} {digits : List Char} {negative : Bool}
    (parts : takeSign s.toList = (negative, digits)) (filled : digits ≠ [])
    (plain : ∀ c ∈ digits, c.isDigit = true) :
    read? s = some (ofDecimal negative (natOfDigits digits) 0) := by
  obtain ⟨c, rest, rfl⟩ := List.exists_cons_of_ne_nil filled
  have digit : c.isDigit = true := plain c List.mem_cons_self
  have differs {word : String} (letters : word.toList.head?.map Char.isDigit = some false) :
      (c :: rest).map Char.toLower ≠ word.toList := by
    intro eq
    rw [← eq, List.map_cons, List.head?_cons, toLower_of_isDigit digit, Option.map_some,
      digit] at letters
    cases letters
  unfold read?
  simp only [parts]
  rw [if_neg (not_or.mpr ⟨differs (by decide), differs (by decide)⟩), if_neg (differs (by decide)),
    readUnsigned?_of_digits filled plain]

theorem WritesInt.exists_read? {word : String} {i : Int} (written : WritesInt word.toList i)
    (small : i.natAbs < Nat.pow 2 53) : ∃ x, read? word = some x ∧ x.HoldsInt i := by
  generalize text : word.toList = cs at written
  cases written with
  | bare filled plain =>
    have unsigned : takeSign word.toList = (false, cs) := by
      obtain ⟨c, rest, rfl⟩ := List.exists_cons_of_ne_nil filled
      have digit : c.isDigit = true := plain c List.mem_cons_self
      rw [text]
      unfold takeSign
      split
      · next eq => cases (List.cons.inj eq).1; cases digit
      · next eq => cases (List.cons.inj eq).1; cases digit
      · rfl
    exact ⟨_, read?_of_digits unsigned filled plain, holdsInt_ofDecimal (by simpa using small) _⟩
  | plus filled plain =>
    exact ⟨_, read?_of_digits (by rw [text]; rfl) filled plain,
      holdsInt_ofDecimal (by simpa using small) _⟩
  | minus filled plain =>
    exact ⟨_, read?_of_digits (by rw [text]; rfl) filled plain,
      holdsInt_ofDecimal (by simpa using small) _⟩

theorem HoldsInt.isFinite {x : Binary64} {i : Int} (holds : x.HoldsInt i) : x.isFinite = true := by
  cases x with
  | finite => rfl
  | nan | infinite => cases holds

end Binary64

namespace Json

theorem Value.exists_ofNumber_eq_integer {x : Binary64} {i : Int} (holds : x.HoldsInt i)
    (small : i.natAbs < Nat.pow 2 53) :
    ∃ inRange, Value.ofNumber x = .num (.integer i inRange) := by
  have inRange : InRange i := by
    have bounds : Nat.pow 2 53 = 9007199254740992 ∧ Nat.pow 2 63 = 9223372036854775808 ∧
        Nat.pow 2 64 = 18446744073709551616 := by decide
    rw [bounds.1] at small
    rw [InRange, bounds.2.1, bounds.2.2]
    omega
  refine ⟨inRange, ?_⟩
  simp only [Value.ofNumber, holds.toInt?, small, if_true, Value.ofInt, inRange, dif_pos]

end Json

end OperatorScript
