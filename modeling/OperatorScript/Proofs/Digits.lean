import Mathlib.Algebra.Group.Nat.Defs
import OperatorScript.Number.Shortest

/-!
Decimal digits of natural numbers and integers.

A number is found again from its digits, and their count says between which powers of ten it lies.
-/

set_option autoImplicit false
set_option relaxedAutoImplicit false

namespace OperatorScript

namespace Text

theorem isDigit_of_mem_toDigits {n : Nat} {c : Char} (inside : c ∈ Nat.toDigits 10 n) :
    c.isDigit = true :=
  Nat.isDigit_of_mem_toDigits (by decide) (by decide) inside

theorem toDigits_inj {m n : Nat} (same : Nat.toDigits 10 m = Nat.toDigits 10 n) : m = n := by
  rw [← Nat.ofDigitChars_ten_toDigits (n := m), same, Nat.ofDigitChars_ten_toDigits]

theorem toDigits_mul_pow {n : Nat} (filled : n ≠ 0) (places : Nat) :
    Nat.toDigits 10 (n * 10 ^ places) = Nat.toDigits 10 n ++ List.replicate places '0' := by
  induction places with
  | zero => simp
  | succ places ih =>
    have positive : 0 < n * 10 ^ places :=
      Nat.mul_pos (Nat.pos_of_ne_zero filled) (Nat.pow_pos (by decide))
    have split : n * 10 ^ (places + 1) = 10 * (n * 10 ^ places) + 0 := by
      rw [Nat.pow_succ, ← Nat.mul_assoc, Nat.mul_comm _ 10, Nat.add_zero]
    have zero : Nat.toDigits 10 0 = ['0'] := rfl
    rw [split, ← Nat.toDigits_append_toDigits (by decide) positive (by decide), ih, zero,
      List.append_assoc, ← List.replicate_succ']

theorem toList_toString_int (i : Int) :
    (toString i).toList = (if 0 ≤ i then [] else ['-']) ++ Nat.toDigits 10 i.natAbs := by
  rw [Int.toString_eq_repr, Int.repr_eq_if]
  split
  · next sign =>
    rw [Nat.repr_eq_ofList_toDigits, String.toList_ofList, List.nil_append,
      show i.toNat = i.natAbs by omega]
  · next sign =>
    have minus : "-".toList = ['-'] := rfl
    rw [Nat.repr_eq_ofList_toDigits, String.toList_append, minus, String.toList_ofList,
      show (-i).toNat = i.natAbs by omega]

theorem toString_int_eq_append (i : Int) :
    toString i = (if i < 0 then "-" else "") ++ toString i.natAbs := by
  rw [← String.toList_inj, toList_toString_int, String.toList_append,
    Nat.toString_eq_ofList_toDigits, String.toList_ofList]
  by_cases sign : i < 0
  · rw [if_neg (Int.not_le.mpr sign), if_pos sign]
    rfl
  · rw [if_pos (Int.not_lt.mp sign), if_neg sign]
    rfl

theorem eq_of_toString_int_eq {i j : Int} (same : toString i = toString j) : i = j := by
  have texts := congrArg String.toList same
  rw [toList_toString_int, toList_toString_int] at texts
  have apart {m n : Nat} : Nat.toDigits 10 m ≠ '-' :: Nat.toDigits 10 n := by
    intro eq
    have digit : '-' ∈ Nat.toDigits 10 m := by simp [eq]
    exact absurd (isDigit_of_mem_toDigits digit) (by decide)
  by_cases sign : 0 ≤ i
  · by_cases sign' : 0 ≤ j
    · rw [if_pos sign, if_pos sign'] at texts
      have magnitudes := toDigits_inj texts
      omega
    · rw [if_pos sign, if_neg sign'] at texts
      exact (apart texts).elim
  · by_cases sign' : 0 ≤ j
    · rw [if_neg sign, if_pos sign'] at texts
      exact (apart texts.symm).elim
    · rw [if_neg sign, if_neg sign'] at texts
      have magnitudes := toDigits_inj (List.append_cancel_left texts)
      omega

end Text

namespace Decimal

theorem length_text_pos (d : Decimal) : 0 < d.text.length := Nat.length_toDigits_pos

theorem length_text_le_iff (d : Decimal) {places : Nat} (pos : 0 < places) :
    d.text.length ≤ places ↔ d.digits < 10 ^ places :=
  Nat.length_toDigits_le_iff (by decide) pos

theorem digits_lt (d : Decimal) : d.digits < 10 ^ d.text.length :=
  (d.length_text_le_iff d.length_text_pos).mp (Nat.le_refl _)

theorem pow_le_digits {d : Decimal} (filled : d.digits ≠ 0) :
    10 ^ (d.text.length - 1) ≤ d.digits := by
  by_cases short : d.text.length = 1
  · rw [short]
    exact Nat.one_le_iff_ne_zero.mpr filled
  · have pos := d.length_text_pos
    have longer : ¬ d.text.length ≤ d.text.length - 1 := by omega
    rw [d.length_text_le_iff (by omega)] at longer
    exact Nat.le_of_not_lt longer

end Decimal

end OperatorScript
