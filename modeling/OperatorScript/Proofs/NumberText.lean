import OperatorScript.Proofs.ShortestDecimal

/-!
The text of a number against the way JavaScript's `String(n)` writes it.

A number is written with the fewest digits that are read as it, with an exponent from `1e21` up and
below `1e-6`. The main statement: a text differs from that only for integers below `1e21` that are
read from fewer digits than they have, all of which are `2 ^ 53` or more in magnitude; they are
written out exactly.
-/

set_option autoImplicit false
set_option relaxedAutoImplicit false

namespace OperatorScript

namespace Decimal

/-- A decimal as JavaScript writes it: filled up with zeros, with a point in it, with zeros in front
of it, or with an exponent, as the place of its point lies. -/
def layout (d : Decimal) : String :=
  let digits := d.text
  String.ofList <|
    if digits.length ≤ d.point ∧ d.point ≤ 21 then
      digits ++ List.replicate (d.point - digits.length).toNat '0'
    else if 0 < d.point ∧ d.point ≤ 21 then
      digits.take d.point.toNat ++ '.' :: digits.drop d.point.toNat
    else if -6 < d.point ∧ d.point ≤ 0 then
      '0' :: '.' :: (List.replicate (-d.point).toNat '0' ++ digits)
    else
      let mantissa :=
        match digits with
        | first :: second :: rest => first :: '.' :: second :: rest
        | single => single
      let sign := if d.point - 1 < 0 then '-' else '+'
      mantissa ++ 'e' :: sign :: Nat.toDigits 10 (d.point - 1).natAbs

private theorem scientific_eq_layout {d : Decimal} (outside : d.point ≤ -6 ∨ 21 < d.point) :
    d.scientific = d.layout := by
  have unfilled : ¬ (d.text.length ≤ d.point ∧ d.point ≤ 21) := by
    have := d.length_text_pos
    omega
  have undivided : ¬ (0 < d.point ∧ d.point ≤ 21) := by omega
  have unmoved : ¬ (-6 < d.point ∧ d.point ≤ 0) := by omega
  refine congrArg String.ofList (Eq.symm ?_)
  exact (if_neg unfilled).trans ((if_neg undivided).trans (if_neg unmoved))

private theorem positional_zero_eq_layout {d : Decimal} (low : -6 < d.point) (high : d.point ≤ 21) :
    d.positional 0 = d.layout := by
  have pos := d.length_text_pos
  simp only [positional, layout, high, low, and_true, true_and, Nat.zero_sub, List.replicate_zero,
    List.append_nil]
  have place : d.point = d.scale + d.text.length := rfl
  generalize d.point = point at *
  generalize d.text = digits at *
  congr 1
  by_cases whole : 0 ≤ d.scale
  · -- Nothing stands after the point.
    have filled : digits.length ≤ point := by omega
    have places : (-d.scale).toNat = 0 := by omega
    have zeros : (point - digits.length).toNat = d.scale.toNat := by omega
    have front : 0 + 1 - digits.length = 0 := by omega
    simp [filled, places, zeros, front]
  · have unfilled : ¬ digits.length ≤ point := by omega
    have back : d.scale.toNat = 0 := by omega
    by_cases divided : 0 < point
    · have front : (-d.scale).toNat + 1 - digits.length = 0 := by omega
      have cut : digits.length - (-d.scale).toNat = point.toNat := by omega
      have fraction : ¬ digits.length ≤ point.toNat := by omega
      simp [unfilled, divided, back, front, cut, fraction]
    · have front : (-d.scale).toNat + 1 - digits.length = (-point).toNat + 1 := by omega
      have cut : (-point).toNat + digits.length + 1 - (-d.scale).toNat = 1 := by omega
      have moved : point ≤ 0 := by omega
      have fraction : digits ≠ [] := List.ne_nil_of_length_pos pos
      simp [unfilled, divided, moved, back, front, cut, fraction, List.replicate_succ]

private theorem layout_of_whole {digits zeros : Nat} (filled : digits ≠ 0)
    (small : digits * 10 ^ zeros < 10 ^ 21) :
    layout ⟨digits, zeros⟩ = toString (digits * 10 ^ zeros) := by
  have spelled := Text.toDigits_mul_pow filled zeros
  have short : (Nat.toDigits 10 digits).length + zeros ≤ 21 := by
    rw [← Nat.length_toDigits_le_iff (b := 10) (by decide) (by decide), spelled, List.length_append,
      List.length_replicate] at small
    exact small
  have point : point ⟨digits, zeros⟩ = zeros + (Nat.toDigits 10 digits).length := rfl
  have count : ((zeros : Int) + (Nat.toDigits 10 digits).length -
      (Nat.toDigits 10 digits).length).toNat = zeros := by omega
  rw [Nat.toString_eq_ofList_toDigits, spelled]
  simp only [layout, text, point]
  rw [if_pos (by omega), count]

private theorem exists_eq_of_layout_eq {d : Decimal} (filled : d.digits ≠ 0) {n : Nat}
    (same : d.layout = toString n) : ∃ zeros, n = d.digits * 10 ^ zeros := by
  have plain : ∀ c ∈ d.layout.toList, c.isDigit = true := by
    rw [same, Nat.toString_eq_ofList_toDigits, String.toList_ofList]
    exact fun c inside => Text.isDigit_of_mem_toDigits inside
  have without {c : Char} (other : c.isDigit = false) : c ∉ d.layout.toList := fun inside => by
    rw [plain c inside] at other
    cases other
  by_cases whole : d.text.length ≤ d.point ∧ d.point ≤ 21
  · refine ⟨(d.point - d.text.length).toNat, (Text.toDigits_inj ?_).symm⟩
    rw [Text.toDigits_mul_pow filled, ← String.ofList_inj, ← Nat.toString_eq_ofList_toDigits,
      ← same]
    simp only [layout, if_pos whole]
    rfl
  · -- Otherwise there is a point or the letter before an exponent in the text.
    exfalso
    have dot := without (c := '.') rfl
    have letter := without (c := 'e') rfl
    simp only [layout, if_neg whole, String.toList_ofList] at dot letter
    by_cases divided : 0 < d.point ∧ d.point ≤ 21
    · rw [if_pos divided] at dot
      simp at dot
    · by_cases moved : -6 < d.point ∧ d.point ≤ 0
      · rw [if_neg divided, if_pos moved] at dot
        simp at dot
      · rw [if_neg divided, if_neg moved] at letter
        simp at letter

end Decimal

namespace Binary64

variable {mantissa exponent : Nat}

section Thresholds

variable (canonical : Canonical mantissa exponent) (filled : 0 < mantissa) (tie : Tie)

include canonical filled

private theorem le_iff_lt_point {bound : Nat} {scale : Int}
    (power : ∃ m e, ∃ canonical' : Canonical m e, 0 < m ∧ m * Nat.pow 2 e = bound ∧
      ofDecimal false 1 scale = .finite false m e canonical') :
    bound ≤ mantissa * Nat.pow 2 exponent ↔ scale < (shortest tie mantissa exponent).point := by
  have inside := (shortest_coarsest canonical filled tie).contained
  have digits := (scale_of_contains canonical filled inside).1
  obtain ⟨m, e, canonical', filled', rfl, read⟩ := power
  rw [← Decimal.units_one_le_iff digits]
  exact (le_units_shortest_iff canonical filled tie canonical' filled' read).symm

private theorem scientificFrom_le_iff :
    scientificFrom ≤ mantissa * Nat.pow 2 exponent ↔ 21 < (shortest tie mantissa exponent).point :=
  le_iff_lt_point canonical filled tie ⟨7629394531250000, 1091, by decide, by decide,
    by decide +kernel, by decide +kernel⟩

private theorem positionalFrom_le_iff :
    positionalFrom ≤ mantissa * Nat.pow 2 exponent ↔ -6 < (shortest tie mantissa exponent).point :=
  le_iff_lt_point canonical filled tie ⟨4722366482869645, 1002, by decide, by decide,
    by decide +kernel, by decide +kernel⟩

private theorem magnitudeText_eq_layout
    (other : scientificFrom ≤ mantissa * Nat.pow 2 exponent ∨
      mantissa * Nat.pow 2 exponent % one ≠ 0) :
    magnitudeText mantissa exponent = (shortest .up mantissa exponent).layout := by
  have high := scientificFrom_le_iff canonical filled .up
  have low := positionalFrom_le_iff canonical filled .up
  unfold magnitudeText
  dsimp only
  split
  · next outside =>
    refine Decimal.scientific_eq_layout ?_
    rw [← Nat.not_le, high, low] at outside
    omega
  · next inside =>
    rw [not_or, high, Nat.not_lt, low] at inside
    rw [if_neg (other.resolve_left (mt high.mp inside.1))]
    exact Decimal.positional_zero_eq_layout inside.2 (by omega)

end Thresholds

private theorem magnitudeText_eq_toString {n : Nat} (filled : n ≠ 0) (small : n < 10 ^ 21)
    (units : mantissa * Nat.pow 2 exponent = n * one) :
    magnitudeText mantissa exponent = toString n := by
  have high : ¬ scientificFrom ≤ n * one :=
    Nat.not_le.mpr (Nat.mul_lt_mul_of_pos_right small one_pos)
  have low : ¬ n * one < positionalFrom := by
    have least : positionalFrom ≤ one := by decide +kernel
    exact Nat.not_lt.mpr (least.trans (Nat.le_mul_of_pos_left _ (Nat.pos_of_ne_zero filled)))
  unfold magnitudeText
  dsimp only
  rw [units, if_neg (not_or.mpr ⟨high, low⟩), if_pos (Nat.mul_mod_left _ _),
    Nat.mul_div_cancel _ one_pos]

/-- At most so many digits and then zeros make up the integer. -/
def HasDigits (n places : Nat) : Prop :=
  ∃ digits zeros, n = digits * 10 ^ zeros ∧ digits < 10 ^ places

section Integer

variable {n : Nat} (canonical : Canonical mantissa exponent) (filled : n ≠ 0)
  (units : mantissa * Nat.pow 2 exponent = n * one)

include filled units

private theorem mantissa_pos : 0 < mantissa := by
  refine Nat.pos_of_ne_zero fun zero => ?_
  rw [zero, Nat.zero_mul] at units
  exact Nat.mul_ne_zero filled one_pos.ne' units.symm

/-- An integer below `1e21` is the text of a shortest decimal exactly if no decimal that is read as
the number has fewer digits than it has before its zeros at the end. -/
private theorem exists_layout_eq_toString_iff (small : n < 10 ^ 21) :
    (∃ d : Decimal, d.ShortestFor (.finite false mantissa exponent canonical) ∧
        d.layout = toString n) ↔
      ∀ d : Decimal, d.ReadAs (.finite false mantissa exponent canonical) →
        HasDigits n d.text.length := by
  have positive := mantissa_pos filled units
  have inside {d : Decimal} (read : d.ReadAs (.finite false mantissa exponent canonical)) :
      (roundingInterval mantissa exponent).Contains d.units :=
    (ofDecimal_eq_finite_iff canonical positive d).mp read
  constructor
  · rintro ⟨d, shortest, same⟩ other read
    have digits := (scale_of_contains canonical positive (inside shortest.readAs)).1
    obtain ⟨zeros, whole⟩ := Decimal.exists_eq_of_layout_eq digits same
    refine ⟨d.digits, zeros, whole, d.digits_lt.trans_le ?_⟩
    exact Nat.pow_le_pow_right (by decide) (shortest.fewest other read)
  · intro fewest
    have found := shortestFor_shortest canonical positive .up
    obtain ⟨digits, zeros, rfl, short⟩ := fewest _ found.readAs
    have exact : Decimal.units ⟨digits, zeros⟩ = (mantissa * Nat.pow 2 exponent : Nat) := by
      rw [Decimal.units_of_scale_nonneg, units]
      rfl
    have length : (Decimal.text ⟨digits, zeros⟩).length ≤
        (shortest .up mantissa exponent).text.length :=
      (Decimal.length_text_le_iff _ (Decimal.length_text_pos _)).mpr short
    refine ⟨⟨digits, zeros⟩, ?_, Decimal.layout_of_whole (left_ne_zero_of_mul filled) small⟩
    exact {
      readAs := by
        refine (ofDecimal_eq_finite_iff canonical positive _).mpr ?_
        rw [exact]
        exact contains_self positive exponent
      fewest := fun other read => length.trans (found.fewest other read)
      nearest := fun other _ _ => by
        rw [exact, magnitude, sub_self, abs_zero]
        exact abs_nonneg _ }

include canonical

private theorem eq_of_contains_mul_one {k : Nat} (small : k ≤ Nat.pow 2 53)
    (inside : (roundingInterval mantissa exponent).Contains (k * one : Nat)) : k = n := by
  have positive := mantissa_pos filled units
  obtain ⟨a, b, exact, short, range⟩ :
      ∃ a b, k * one = a * Nat.pow 2 b ∧ a < Nat.pow 2 53 ∧ b ≤ 2045 := by
    unfold one
    generalize unit : 1074 = place
    rcases Nat.lt_or_eq_of_le small with less | rfl
    · exact ⟨k, place, rfl, less, by omega⟩
    · refine ⟨Nat.pow 2 52, place + 1, ?_, by decide, by omega⟩
      rw [Nat.mul_comm (Nat.pow 2 52), show Nat.pow 2 (place + 1) = Nat.pow 2 place * 2 from rfl,
        Nat.mul_assoc, Nat.mul_comm]
  have rounded : ofUnits false (k * one) 1 = .finite false mantissa exponent canonical := by
    rw [ofUnits_eq_finite_iff false Nat.one_pos, ← contains_div_iff positive Nat.one_pos,
      Nat.cast_one, div_one]
    exact inside
  have kept := units?_ofUnits short range false
  rw [exact] at rounded
  rw [rounded] at kept
  have same : mantissa * Nat.pow 2 exponent = a * Nat.pow 2 b :=
    Int.ofNat.inj (Option.some.inj kept)
  exact Nat.eq_of_mul_eq_mul_right one_pos (exact.trans (same.symm.trans units))

private theorem eq_of_contains_whole (small : n < Nat.pow 2 53) {digits zeros : Nat}
    (inside : (roundingInterval mantissa exponent).Contains (Decimal.units ⟨digits, zeros⟩)) :
    n = digits * 10 ^ zeros := by
  have value : Decimal.units ⟨digits, zeros⟩ = (digits * 10 ^ zeros * one : Nat) := by
    rw [Decimal.units_of_scale_nonneg]
    rfl
  rw [value] at inside
  by_cases reached : digits * 10 ^ zeros ≤ Nat.pow 2 53
  · exact (eq_of_contains_mul_one canonical filled units reached inside).symm
  · -- The least integer of 54 bits lies between the two.
    have self := contains_self (mantissa_pos filled units) exponent
    rw [units] at self
    have above : ((Nat.pow 2 53 * one : Nat) : ℚ) ≤ (digits * 10 ^ zeros * one : Nat) :=
      Nat.cast_le.mpr (Nat.mul_le_mul_right _ (Nat.le_of_not_le reached))
    have below : ((n * one : Nat) : ℚ) ≤ (Nat.pow 2 53 * one : Nat) :=
      Nat.cast_le.mpr (Nat.mul_le_mul_right _ small.le)
    have equal := eq_of_contains_mul_one canonical filled units le_rfl
      (self.between inside below above)
    exact absurd equal small.ne'

private theorem eq_pow_of_contains_lt (small : n < Nat.pow 2 53) {d : Decimal} {places : Nat}
    (inside : (roundingInterval mantissa exponent).Contains d.units) (first : 10 ^ places ≤ n)
    (before : d.units < Decimal.units ⟨1, places⟩) : n = 10 ^ places := by
  have self := contains_self (mantissa_pos filled units) exponent
  rw [units] at self
  have power : Decimal.units ⟨1, places⟩ = (10 ^ places * one : Nat) := by
    rw [Decimal.units_of_scale_nonneg, Nat.one_mul]
    rfl
  rw [power] at before
  have le : ((10 ^ places * one : Nat) : ℚ) ≤ (n * one : Nat) :=
    Nat.cast_le.mpr (Nat.mul_le_mul_right _ first)
  exact (eq_of_contains_mul_one canonical filled units (first.trans small.le)
    (inside.between self before.le le)).symm

private theorem hasDigits_of_small (small : n < Nat.pow 2 53) {d : Decimal}
    (inside : (roundingInterval mantissa exponent).Contains d.units) :
    HasDigits n d.text.length := by
  by_cases whole : 0 ≤ d.scale
  · obtain ⟨digits, scale⟩ := d
    obtain ⟨zeros, rfl⟩ := Int.eq_ofNat_of_zero_le whole
    exact ⟨digits, zeros, eq_of_contains_whole canonical filled units small inside,
      Decimal.digits_lt ⟨digits, zeros⟩⟩
  · have digits := (scale_of_contains canonical (mantissa_pos filled units) inside).1
    obtain ⟨places, length⟩ : ∃ places, (Decimal.text ⟨n, 0⟩).length = places + 1 :=
      Nat.exists_eq_succ_of_ne_zero (Decimal.length_text_pos _).ne'
    have first : 10 ^ places ≤ n := by
      have := Decimal.pow_le_digits (d := ⟨n, 0⟩) filled
      rwa [length, Nat.add_sub_cancel] at this
    rcases le_or_gt (Decimal.units ⟨1, places⟩) d.units with reached | before
    · -- The digits before the point are as many as the integer has, and there are more.
      have point := (Decimal.units_one_le_iff digits _).mp reached
      refine ⟨n, 0, (Nat.mul_one n).symm, (Decimal.digits_lt ⟨n, 0⟩).trans_le ?_⟩
      refine Nat.pow_le_pow_right (by decide) ?_
      unfold Decimal.point at point
      omega
    · have equal := eq_pow_of_contains_lt canonical filled units small inside first before
      refine ⟨1, places, ?_, Nat.one_lt_pow d.length_text_pos.ne' (by decide)⟩
      rw [Nat.one_mul, equal]

end Integer

def abs : Binary64 → Binary64
  | .nan => .nan
  | .infinite _ => .infinite false
  | .finite _ mantissa exponent canonical => .finite false mantissa exponent canonical

/-- A text of a number as JavaScript writes it. Of two shortest decimals that are equally near to
the number either may be written. -/
inductive WrittenAs : Binary64 → String → Prop
  | nan : WrittenAs .nan "NaN"
  | infinite : WrittenAs (.infinite false) "Infinity"
  | minusInfinite : WrittenAs (.infinite true) "-Infinity"
  | zero (negative : Bool) : WrittenAs (zero negative) "0"
  | positive {mantissa exponent : Nat} {canonical : Canonical mantissa exponent} {d : Decimal}
      (filled : 0 < mantissa)
      (shortest : d.ShortestFor (.finite false mantissa exponent canonical)) :
      WrittenAs (.finite false mantissa exponent canonical) d.layout
  | negative {mantissa exponent : Nat} {canonical : Canonical mantissa exponent} {d : Decimal}
      (filled : 0 < mantissa)
      (shortest : d.ShortestFor (.finite false mantissa exponent canonical)) :
      WrittenAs (.finite true mantissa exponent canonical) ("-" ++ d.layout)

private theorem writtenAs_finite_iff {negative : Bool} {canonical : Canonical mantissa exponent}
    (filled : 0 < mantissa) (text : String) :
    WrittenAs (.finite negative mantissa exponent canonical)
        ((if negative then "-" else "") ++ text) ↔
      ∃ d : Decimal,
        d.ShortestFor (.finite false mantissa exponent canonical) ∧ d.layout = text := by
  constructor
  · intro written
    generalize whole : (if negative then "-" else "") ++ text = s at written
    generalize number : Binary64.finite negative mantissa exponent canonical = x at written
    cases written with
    | nan | infinite | minusInfinite => cases number
    | zero =>
      cases number
      exact absurd filled (Nat.lt_irrefl 0)
    | positive _ shortest =>
      cases number
      exact ⟨_, shortest, (whole.symm.trans (String.empty_append)).symm ▸ rfl⟩
    | negative _ shortest =>
      cases number
      exact ⟨_, shortest, (String.append_right_inj _).mp whole.symm⟩
  · rintro ⟨d, shortest, rfl⟩
    cases negative with
    | false =>
      rw [if_neg Bool.false_ne_true, String.empty_append]
      exact .positive filled shortest
    | true => exact .negative filled shortest

private theorem holdsInt_finite_iff {negative : Bool} {canonical : Canonical mantissa exponent}
    {i : Int} :
    (Binary64.finite negative mantissa exponent canonical).HoldsInt i ↔
      mantissa * Nat.pow 2 exponent = i.natAbs * one ∧
        i = if negative then -(i.natAbs : Int) else i.natAbs := by
  have positive : (0 : Int) < (one : Int) := Int.natCast_pos.mpr one_pos
  unfold HoldsInt units?
  rw [Option.some_inj]
  generalize mantissa * Nat.pow 2 exponent = magnitude
  constructor
  · intro equal
    have size := congrArg Int.natAbs equal
    rw [Int.natAbs_mul, Int.natAbs_natCast] at size
    cases negative with
    | false =>
      rw [if_neg Bool.false_ne_true, Int.natAbs_natCast] at size
      have sign : 0 ≤ i * (one : Int) := equal ▸ Int.natCast_nonneg magnitude
      have := nonneg_of_mul_nonneg_left sign positive
      refine ⟨size, ?_⟩
      rw [if_neg Bool.false_ne_true]
      omega
    | true =>
      rw [if_pos rfl, Int.natAbs_neg, Int.natAbs_natCast] at size
      have sign : i * (one : Int) ≤ 0 :=
        equal ▸ Int.neg_nonpos_of_nonneg (Int.natCast_nonneg magnitude)
      have := nonpos_of_mul_nonpos_left sign positive
      refine ⟨size, ?_⟩
      rw [if_pos rfl]
      omega
  · rintro ⟨size, sign⟩
    rw [size, Int.natCast_mul]
    cases negative with
    | false =>
      rw [if_neg Bool.false_ne_true] at sign ⊢
      rw [← sign]
    | true =>
      rw [if_pos rfl] at sign ⊢
      rw [← Int.neg_mul, ← sign]

private theorem writtenAs_of_not_integer {negative : Bool} {canonical : Canonical mantissa exponent}
    (filled : 0 < mantissa)
    (other : ∀ i : Int, (Binary64.finite negative mantissa exponent canonical).HoldsInt i →
      10 ^ 21 ≤ i.natAbs) :
    let x := Binary64.finite negative mantissa exponent canonical
    x.WrittenAs x.text := by
  have outside : scientificFrom ≤ mantissa * Nat.pow 2 exponent ∨
      mantissa * Nat.pow 2 exponent % one ≠ 0 := by
    refine Decidable.or_iff_not_imp_right.mpr fun whole => ?_
    obtain ⟨n, units⟩ :=
      exists_eq_mul_left_of_dvd (Nat.dvd_of_mod_eq_zero (Decidable.not_not.mp whole))
    have size : (if negative then -(n : Int) else n).natAbs = n := by
      cases negative with
      | false => exact Int.natAbs_natCast n
      | true => exact (Int.natAbs_neg n).trans (Int.natAbs_natCast n)
    have large := other (if negative then -(n : Int) else n)
      (holdsInt_finite_iff.mpr ⟨by rw [size, units], by rw [size]⟩)
    rw [size] at large
    rw [units]
    exact Nat.mul_le_mul_right _ large
  intro x
  have text :
      x.text = (if negative then "-" else "") ++ (shortest .up mantissa exponent).layout := by
    rw [← magnitudeText_eq_layout canonical filled outside]
    exact if_neg filled.ne'
  rw [text, writtenAs_finite_iff filled]
  exact ⟨_, shortestFor_shortest canonical filled .up, rfl⟩

private theorem HoldsInt.eq {x : Binary64} {i j : Int} (first : x.HoldsInt i)
    (second : x.HoldsInt j) :
    i = j :=
  Option.some.inj (first.toInt?.symm.trans second.toInt?)

private theorem exponent_eq_zero (canonical : Canonical 0 exponent) : exponent = 0 :=
  canonical.2.2.resolve_right (by decide)

private theorem HoldsInt.cases_finite {x : Binary64} {i : Int} (holds : x.HoldsInt i) :
    (∃ negative, x = zero negative ∧ i = 0) ∨
      ∃ negative mantissa exponent canonical, x = .finite negative mantissa exponent canonical ∧
        0 < mantissa ∧ i.natAbs ≠ 0 ∧ mantissa * Nat.pow 2 exponent = i.natAbs * one ∧
        (i < 0 ↔ negative = true) := by
  cases x with
  | nan | infinite => cases holds
  | finite negative mantissa exponent canonical =>
    obtain ⟨units, sign⟩ := holdsInt_finite_iff.mp holds
    rcases Nat.eq_zero_or_pos mantissa with rfl | filled
    · obtain rfl := exponent_eq_zero canonical
      rw [Nat.zero_mul, eq_comm, Nat.mul_eq_zero] at units
      exact .inl ⟨negative, rfl, Int.natAbs_eq_zero.mp (units.resolve_right one_pos.ne')⟩
    · have nonzero : i.natAbs ≠ 0 := by
        intro none
        rw [none, Nat.zero_mul] at units
        exact (Nat.mul_pos filled (Nat.pow_pos (by decide))).ne' units
      refine .inr ⟨negative, mantissa, exponent, canonical, rfl, filled, nonzero, units, ?_⟩
      cases negative with
      | false =>
        rw [if_neg Bool.false_ne_true] at sign
        exact iff_of_false (by omega) Bool.false_ne_true
      | true =>
        rw [if_pos rfl] at sign
        exact iff_of_true (by omega) rfl

private theorem text_eq_toString {x : Binary64} {i : Int} (holds : x.HoldsInt i)
    (small : i.natAbs < 10 ^ 21) : x.text = toString i := by
  rcases holds.cases_finite with ⟨negative, rfl, rfl⟩ | ⟨negative, m, e, canonical, rfl, filled,
    nonzero, units, sign⟩
  · rfl
  · rw [Text.toString_int_eq_append, ← magnitudeText_eq_toString nonzero small units]
    simp only [text, if_neg filled.ne', sign]

private theorem HoldsInt.writtenAs_text_iff {x : Binary64} {i : Int} (holds : x.HoldsInt i)
    (small : i.natAbs < 10 ^ 21) :
    x.WrittenAs x.text ↔ ∀ d : Decimal, d.ReadAs x.abs → HasDigits i.natAbs d.text.length := by
  have text := text_eq_toString holds small
  rcases holds.cases_finite with ⟨negative, rfl, rfl⟩ | ⟨negative, m, e, canonical, rfl, filled,
    nonzero, units, sign⟩
  · exact iff_of_true (.zero negative) fun _ _ => ⟨0, 0, rfl, Nat.pow_pos (by decide)⟩
  · rw [text, Text.toString_int_eq_append]
    simp only [sign]
    rw [writtenAs_finite_iff filled]
    exact exists_layout_eq_toString_iff canonical nonzero units small

private theorem HoldsInt.writtenAs_text {x : Binary64} {i : Int} (holds : x.HoldsInt i)
    (small : i.natAbs < 2 ^ 53) : x.WrittenAs x.text := by
  rw [holds.writtenAs_text_iff (small.trans (by decide))]
  rcases holds.cases_finite with ⟨negative, rfl, rfl⟩ | ⟨negative, m, e, canonical, rfl, filled,
    nonzero, units, sign⟩
  · exact fun _ _ => ⟨0, 0, rfl, Nat.pow_pos (by decide)⟩
  · intro d read
    exact hasDigits_of_small canonical nonzero units small
      ((ofDecimal_eq_finite_iff canonical filled d).mp read)

/-- A number is written as JavaScript writes it, but for integers below `1e21` in magnitude that are
read from fewer digits than they have; these have at least 54 bits. All integers below `1e21` are
written out. -/
theorem text_writtenAs_iff (x : Binary64) :
    (x.WrittenAs x.text ↔ ∀ i : Int, x.HoldsInt i → i.natAbs < 10 ^ 21 →
        ∀ d : Decimal, d.ReadAs x.abs → HasDigits i.natAbs d.text.length) ∧
      ∀ i : Int, x.HoldsInt i → i.natAbs < 10 ^ 21 →
        x.text = toString i ∧ (i.natAbs < 2 ^ 53 → x.WrittenAs x.text) := by
  refine ⟨?_, fun i holds small => ⟨text_eq_toString holds small, holds.writtenAs_text⟩⟩
  by_cases integer : ∃ i : Int, x.HoldsInt i ∧ i.natAbs < 10 ^ 21
  · obtain ⟨i, holds, small⟩ := integer
    rw [holds.writtenAs_text_iff small]
    constructor
    · intro fewest j holds' _
      rw [holds'.eq holds]
      exact fewest
    · exact fun all => all i holds small
  · refine iff_of_true ?_ fun i holds small => (integer ⟨i, holds, small⟩).elim
    cases x with
    | nan => exact .nan
    | infinite negative =>
      cases negative with
      | false => exact .infinite
      | true => exact .minusInfinite
    | finite negative mantissa exponent canonical =>
      rcases Nat.eq_zero_or_pos mantissa with rfl | filled
      · obtain rfl := exponent_eq_zero canonical
        exact .zero negative
      · refine writtenAs_of_not_integer filled fun i holds => ?_
        exact Nat.le_of_not_lt fun small => integer ⟨i, holds, small⟩

theorem text_writtenAs_of_integer : (ofInt 100500).WrittenAs "100500" := by
  have holds : (ofInt 100500).HoldsInt 100500 := holdsInt_ofInt (by decide)
  obtain ⟨text, written⟩ := (text_writtenAs_iff (ofInt 100500)).2 100500 holds (by decide)
  rw [text] at written
  exact written (by decide)

/-- The number `2 ^ 60` is read from sixteen digits, but is written with all of its nineteen. -/
theorem not_writtenAs_of_two_pow :
    let x := ofInt (2 ^ 60)
    x.text = "1152921504606846976" ∧ x.WrittenAs "1152921504606847000" ∧ ¬ x.WrittenAs x.text := by
  intro x
  have number : x = .finite false (Nat.pow 2 52) 1082 (by decide) := by decide +kernel
  have holds : x.HoldsInt (2 ^ 60) := by
    rw [number, holdsInt_finite_iff]
    exact ⟨by decide +kernel, rfl⟩
  have found : shortest .up (Nat.pow 2 52) 1082 = ⟨1152921504606847, 3⟩ := by decide +kernel
  refine ⟨text_eq_toString holds (by decide), ?_, fun written => ?_⟩
  · have canonical : Canonical (Nat.pow 2 52) 1082 := by decide
    have shortest := shortestFor_shortest canonical (by decide) .up
    rw [found] at shortest
    rw [number]
    exact .positive (by decide) shortest
  · have read : Decimal.ReadAs ⟨1152921504606847, 3⟩ x.abs := by
      rw [number]
      unfold Decimal.ReadAs
      decide +kernel
    obtain ⟨digits, zeros, whole, short⟩ := (holds.writtenAs_text_iff (by decide)).mp written _ read
    have length : (Decimal.text ⟨1152921504606847, 3⟩).length = 16 := by decide
    rw [length] at short
    cases zeros with
    | zero => omega
    | succ zeros =>
      rw [Nat.pow_succ, ← Nat.mul_assoc] at whole
      omega

end Binary64

end OperatorScript
