import Restyle.Proofs.LongestNumerals
import Restyle.Proofs.Units

/-!
# Values that end in a unit

Whether a value ends in the unit and which number it starts with are two questions, and nothing asks
whether numeral and unit meet.  A value of one part that passes both becomes the number of its longest
numeral, whatever stands between the two (`withoutUnit_eq_number_iff`), and all others are left as they
are.  So with the unit `em` the length `1rem` becomes `1`.

For a unit that does not go on with a numeral, only a numeral with the unit right behind it becomes a
number exactly if the unit is all that stands behind the longest numeral (`numbers_are_in_unit_iff`).
For such a unit and no other, the scanner of the numeral stops at it, and so a number that is written with
the unit behind it is read back (`withoutUnit_undoes_numberText`).
-/

namespace Restyle.Style

open Number (Numeral IsBehind)

/-- A numeral with the unit behind it, and the number that the numeral denotes. -/
def IsInUnit (value unit : String) (n : Double) : Prop :=
  ∃ m : Numeral, value.toList = m.text ++ unit.toList ∧ m.toDouble = n

/-- A value of one part that starts with a numeral and ends in the unit.  The two need not meet, and
they may overlap. -/
structure EndsInUnit (value unit : String) (m : Numeral) : Prop where
  single : ∀ c ∈ value.toList, Text.isBlank c = false ∧ c ≠ ','
  starts : m.IsLongest value.toList
  ends : unit.toList <:+ value.toList

theorem hasSeveralParts_eq_false_iff {value : String} : hasSeveralParts value = false ↔
    ∀ c ∈ value.toList, Text.isBlank c = false ∧ c ≠ ',' := by
  unfold hasSeveralParts
  rw [List.any_eq_false]
  simp

/-- A text starts with the number of its longest numeral, white space aside. -/
theorem leadingNumber?_of_isLongest {text : String} {m : Numeral}
    (h : m.IsLongest (Text.trimStart text.toList)) : leadingNumber? text = some m.toDouble := by
  have hne : Number.numeralLength (Text.trimStart text.toList) ≠ 0 := fun hzero =>
    Number.numeralLength_eq_zero_iff.1 hzero m h.front
  obtain ⟨m', hm', htake⟩ := Number.exists_isLongest hne
  unfold leadingNumber?
  dsimp only
  rw [if_neg hne, htake, hm'.text_eq h, m.readNumeral_text, Numeral.toDouble]

theorem leadingNumber?_eq_none_iff {text : String} : leadingNumber? text = none ↔
    ∀ m : Numeral, ¬m.text <+: Text.trimStart text.toList := by
  rw [← Number.numeralLength_eq_zero_iff]
  unfold leadingNumber?
  dsimp only
  split
  · next hzero => exact iff_of_true rfl hzero
  · next hne => exact iff_of_false nofun hne

theorem leadingNumber?_eq_some_iff {text : String} {n : Double} : leadingNumber? text = some n ↔
    ∃ m : Numeral, m.IsLongest (Text.trimStart text.toList) ∧ m.toDouble = n := by
  constructor
  · intro h
    have hne : Number.numeralLength (Text.trimStart text.toList) ≠ 0 := by
      intro hzero
      rw [leadingNumber?_eq_none_iff.2 (Number.numeralLength_eq_zero_iff.1 hzero)] at h
      cases h
    obtain ⟨m, hm, -⟩ := Number.exists_isLongest hne
    rw [leadingNumber?_of_isLongest hm] at h
    exact ⟨m, hm, Option.some.inj h⟩
  · rintro ⟨m, hm, rfl⟩
    exact leadingNumber?_of_isLongest hm

/-- There is no white space in front of a value of one part. -/
theorem trimStart_of_single {value : String}
    (h : ∀ c ∈ value.toList, Text.isBlank c = false ∧ c ≠ ',') :
    Text.trimStart value.toList = value.toList := by
  rw [Text.trimStart]
  cases hcs : value.toList with
  | nil => rfl
  | cons c cs =>
    have hblank : Text.isBlank c = false := (h c (by rw [hcs]; exact List.mem_cons_self)).1
    rw [List.dropWhile_cons, hblank]
    rfl

section

variable {value unit : String} (hne : unit ≠ "")

include hne

/-- Of a value of one part that ends in the unit, its first number is what is left. -/
theorem withoutUnit_of_suffix (hsingle : hasSeveralParts value = false)
    (hends : unit.toList <:+ value.toList) :
    withoutUnit value (some unit) = (leadingNumber? value).elim (.scalar value) .number := by
  have hempty : (unit == "") = false := beq_eq_false_iff_ne.2 hne
  have hsuffix : unit.toList.isSuffixOf value.toList = true := List.isSuffixOf_iff_suffix.2 hends
  unfold withoutUnit
  dsimp only
  rw [hempty, hsingle, hsuffix]
  cases leadingNumber? value <;> rfl

omit hne in
theorem withoutUnit_of_not_suffix
    (h : ¬(hasSeveralParts value = false ∧ unit.toList <:+ value.toList)) :
    withoutUnit value (some unit) = .scalar value := by
  unfold withoutUnit
  apply if_pos
  by_cases hsingle : hasSeveralParts value = false
  · have hends : unit.toList.isSuffixOf value.toList = false := by
      rw [Bool.eq_false_iff]
      intro htrue
      exact h ⟨hsingle, List.isSuffixOf_iff_suffix.1 htrue⟩
    rw [hends, Bool.not_false, Bool.or_true]
  · rw [eq_true_of_ne_false hsingle, Bool.or_true, Bool.true_or]

/-- A value becomes a number if it is of one part, ends in the unit and starts with a numeral. -/
theorem withoutUnit_eq_number_iff {n : Double} : withoutUnit value (some unit) = .number n ↔
    ∃ m, EndsInUnit value unit m ∧ m.toDouble = n := by
  by_cases h : hasSeveralParts value = false ∧ unit.toList <:+ value.toList
  · have hparts := hasSeveralParts_eq_false_iff.1 h.1
    have hread : withoutUnit value (some unit) = .number n ↔ leadingNumber? value = some n := by
      rw [withoutUnit_of_suffix hne h.1 h.2]
      cases leadingNumber? value <;> simp
    rw [hread, leadingNumber?_eq_some_iff, trimStart_of_single hparts]
    constructor
    · rintro ⟨m, hm, heq⟩
      exact ⟨m, ⟨hparts, hm, h.2⟩, heq⟩
    · rintro ⟨m, hm, heq⟩
      exact ⟨m, hm.starts, heq⟩
  · rw [withoutUnit_of_not_suffix h]
    constructor
    · intro heq
      cases heq
    · rintro ⟨m, hm, -⟩
      exact absurd ⟨hasSeveralParts_eq_false_iff.2 hm.single, hm.ends⟩ h

/-- A value that does not become a number is left as it is. -/
theorem withoutUnit_eq_scalar (h : ∀ n, withoutUnit value (some unit) ≠ .number n) :
    withoutUnit value (some unit) = .scalar value := by
  by_cases hends : hasSeveralParts value = false ∧ unit.toList <:+ value.toList
  · have hsplit := withoutUnit_of_suffix hne hends.1 hends.2
    cases hread : leadingNumber? value with
    | none => rw [hsplit, hread, Option.elim_none]
    | some n =>
      rw [hread, Option.elim_some] at hsplit
      exact absurd hsplit (h n)
  · exact withoutUnit_of_not_suffix hends

/-- Only numerals in a unit become numbers if the unit is all that stands behind the longest numeral of
every value that ends in it. -/
theorem numbers_are_in_unit_iff (hunit : IsBehind unit.toList) :
    (∀ n, withoutUnit value (some unit) = .number n → IsInUnit value unit n) ↔
      ∀ m rest, EndsInUnit value unit m → value.toList = m.text ++ rest → rest = unit.toList := by
  constructor
  · intro h m rest hm hrest
    obtain ⟨m', hvalue, -⟩ := h m.toDouble ((withoutUnit_eq_number_iff hne).2 ⟨m, hm, rfl⟩)
    have hlength : m'.text.length = m.text.length := by
      apply Nat.le_antisymm
      · exact hm.starts.longest m' ⟨_, hvalue.symm⟩
      · have hle := m.length_le_numeralLength rest
        rwa [← hrest, hvalue, m'.numeralLength_append hunit] at hle
    rw [hvalue] at hrest
    exact (List.append_inj hrest hlength).2.symm
  · intro h n hnumber
    obtain ⟨m, hm, heq⟩ := (withoutUnit_eq_number_iff hne).1 hnumber
    obtain ⟨rest, hrest⟩ := hm.starts.front
    refine ⟨m, ?_, heq⟩
    rw [← h m rest hm hrest.symm, hrest]

end

/-- **The unit at the end and the number at the front are looked for apart.**  A value becomes a number
exactly if it has one part, ends in the unit and starts with a numeral, and the number is that of the
longest such numeral.  Every other value is left as it is.  For a unit that does not go on with a
numeral, what becomes a number is a numeral with just the unit behind it exactly if nothing stands
between the two. -/
theorem withoutUnit_splits_iff (value unit : String) (hne : unit ≠ "") :
    (∀ n, withoutUnit value (some unit) = .number n ↔
      ∃ m, EndsInUnit value unit m ∧ m.toDouble = n) ∧
    ((∀ n, withoutUnit value (some unit) ≠ .number n) →
      withoutUnit value (some unit) = .scalar value) ∧
    (IsBehind unit.toList →
      ((∀ n, withoutUnit value (some unit) = .number n → IsInUnit value unit n) ↔
        ∀ m rest, EndsInUnit value unit m → value.toList = m.text ++ rest → rest = unit.toList)) :=
  ⟨fun _ => withoutUnit_eq_number_iff hne, withoutUnit_eq_scalar hne, numbers_are_in_unit_iff hne⟩

/-- A length in `rem` ends in `em`, and becomes a number although it is none in `em`. -/
theorem withoutUnit_splits_rem : "em" ≠ "" ∧ IsBehind "em".toList ∧
    ∃ n, withoutUnit "1rem" (some "em") = .number n ∧ ¬IsInUnit "1rem" "em" n := by
  have hne : "em" ≠ "" := by decide
  have hunit : IsBehind "em".toList := ⟨rfl, nofun, rfl⟩
  have hfront : Number.numeralLength "1rem".toList ≠ 0 := by decide
  obtain ⟨m, hm, -⟩ := Number.exists_isLongest hfront
  have hends : EndsInUnit "1rem" "em" m :=
    ⟨hasSeveralParts_eq_false_iff.1 rfl, hm, ['1', 'r'], rfl⟩
  refine ⟨hne, hunit, m.toDouble, ((withoutUnit_splits_iff "1rem" "em" hne).1 _).2 ⟨m, hends, rfl⟩, ?_⟩
  rintro ⟨m', hvalue, -⟩
  -- What stands in front of `em` is `1r`, and no numeral has an `r` in it.
  have hfront' : ['1', 'r'] ++ "em".toList = m'.text ++ "em".toList := hvalue
  have htext : m'.text = ['1', 'r'] := (List.append_cancel_right hfront').symm
  have hchar := m'.isNumeralChar_of_mem_text (c := 'r') (by rw [htext]; decide)
  cases hchar

/-! ## Written numbers -/

/-- Negative zero is the only number that has a sign to lose. -/
theorem unsignedZero_eq_self {n : Double} (h : n ≠ .finite true ⟨0, by decide⟩) :
    n.unsignedZero = n := by
  cases n with
  | nan => rfl
  | infinite => rfl
  | finite negative code =>
    rw [Double.unsignedZero]
    by_cases hzero : code.val = 0
    · obtain rfl : code = ⟨0, by decide⟩ := Fin.ext hzero
      cases negative with
      | false => rfl
      | true => exact absurd rfl h
    · rw [bne_iff_ne.2 hzero, Bool.and_true]

/-- **Taking off a unit undoes writing a number in it.**  The unit is any text of one part that does not
go on with a numeral: it starts neither with a digit nor with a point, nor with the mark of an exponent
that has a digit behind it and its sign.  All finite numbers come back, in whichever form they are
written, but for negative zero, which is written without its sign. -/
theorem withoutUnit_undoes_numberText {n : Double} (hfinite : n.isFinite = true)
    (hzero : n ≠ .finite true ⟨0, by decide⟩) {unit : String} (hne : unit ≠ "")
    (hsingle : ∀ c ∈ unit.toList, Text.isBlank c = false ∧ c ≠ ',')
    (hunit : ¬Number.GoesOn unit.toList) :
    withoutUnit (Value.numberText n ++ unit) (some unit) = .number n := by
  have hparts : hasSeveralParts unit = false := hasSeveralParts_eq_false_iff.2 hsingle
  rw [withoutUnit_numberText hfinite (Number.isBehind_iff.2 hunit) hne hparts,
    unsignedZero_eq_self hzero]

/-- A number with an exponent in a unit that starts with the mark of one. -/
theorem withoutUnit_undoes_em : withoutUnit "-1e+21em" (some "em") = .number (.ofInt (-10 ^ 21)) := by
  have htext : Value.numberText (.ofInt (-10 ^ 21)) ++ "em" = "-1e+21em" := by decide +kernel
  have hunit : ¬Number.GoesOn "em".toList := Number.isBehind_iff.1 ⟨rfl, nofun, rfl⟩
  have hfinite : (Double.ofInt (-10 ^ 21)).isFinite = true := by decide +kernel
  have hzero : Double.ofInt (-10 ^ 21) ≠ .finite true ⟨0, by decide⟩ := by decide +kernel
  have hsingle : ∀ c ∈ "em".toList, Text.isBlank c = false ∧ c ≠ ',' := by
    intro c hc
    have hcases : c = 'e' ∨ c = 'm' := by simpa using hc
    rcases hcases with rfl | rfl <;> decide
  rw [← htext]
  exact withoutUnit_undoes_numberText hfinite hzero (by decide) hsingle hunit

end Restyle.Style
