import Restyle.Proofs.Letters
import Restyle.Proofs.Numerals
import Restyle.Style.Unit

/-!
# Numbers with a unit

A finite number that is written with a unit behind it is found again when the unit is taken off, unless
the unit goes on with the number.  Only the sign of zero is lost, which is not written.
-/

namespace Restyle

/-- The number with positive zero for negative zero. -/
def Double.unsignedZero : Double → Double
  | .finite negative code => .finite (negative && code.val != 0) code
  | n => n

namespace Number

/-- The characters of numerals. -/
def isNumeralChar (c : Char) : Bool :=
  c.isDigit || ['+', '-', '.', 'e', 'E'].contains c

theorem IsDigits.isNumeralChar {cs : List Char} (h : IsDigits cs) {c : Char} (hc : c ∈ cs) :
    isNumeralChar c = true := by
  rw [Number.isNumeralChar, h c hc, Bool.true_or]

theorem IsSign.isNumeralChar {cs : List Char} (h : IsSign cs) {c : Char} (hc : c ∈ cs) :
    isNumeralChar c = true := by
  have hall : [[], ['+'], ['-']].all (List.all · Number.isNumeralChar) = true := by decide
  exact List.all_eq_true.1 (List.all_eq_true.1 hall cs h) c hc

namespace Numeral

variable (n : Numeral)

theorem isNumeralChar_of_mem_text {c : Char} (hc : c ∈ n.text) : isNumeralChar c = true := by
  simp only [text, unsigned, List.mem_append] at hc
  rcases hc with hc | hc | hc | hc
  · exact n.isSign.isNumeralChar hc
  · exact n.isDigits_whole.isNumeralChar hc
  · unfold pointText at hc
    split at hc
    · next ds hds =>
      rcases List.mem_cons.1 hc with rfl | hc
      · rfl
      · exact (n.isDigits_fraction ds hds).isNumeralChar hc
    · cases hc
  · unfold exponentText at hc
    split at hc
    · next e _ =>
      simp only [Exponent.text, List.mem_cons, List.mem_append] at hc
      rcases hc with rfl | hc | hc
      · rcases e.isMark with h | h <;> rw [h] <;> rfl
      · exact e.isSign.isNumeralChar hc
      · exact e.isDigits.isNumeralChar hc
    · cases hc

end Numeral

end Number

namespace Style

open Number (Numeral IsBehind)

theorem isBlank_of_isNumeralChar {c : Char} (h : Number.isNumeralChar c = true) :
    Text.isBlank c = false := by
  rcases Bool.or_eq_true_iff.1 h with hdigit | hsign
  · exact Text.isBlank_of_graphic (Text.graphic_of_isAlphanum (Text.isAlphanum_iff.2 (.inr hdigit)))
  · have hnone : ['+', '-', '.', 'e', 'E'].any Text.isBlank = false := by decide
    exact Bool.eq_false_iff.2 (List.any_eq_false.1 hnone c (List.contains_iff_mem.1 hsign))

theorem ne_comma_of_isNumeralChar {c : Char} (h : Number.isNumeralChar c = true) : c ≠ ',' := by
  rintro rfl
  exact absurd h (by decide)

section

variable {unit : String} (hunit : IsBehind unit.toList)

include hunit

theorem leadingNumber?_numeral (n : Numeral) :
    leadingNumber? (String.ofList n.text ++ unit) = some n.toDouble := by
  obtain ⟨c, cs, hcons⟩ := List.exists_cons_of_ne_nil n.text_ne_nil
  have hblank : Text.isBlank c = false :=
    isBlank_of_isNumeralChar (n.isNumeralChar_of_mem_text (hcons ▸ List.mem_cons_self))
  have htrim : Text.trimStart (n.text ++ unit.toList) = n.text ++ unit.toList := by
    rw [Text.trimStart, hcons, List.cons_append, List.dropWhile_cons, hblank]
    rfl
  have hlength : n.text.length ≠ 0 := by
    rw [hcons]
    exact Nat.succ_ne_zero _
  unfold leadingNumber?
  rw [String.toList_append, String.toList_ofList, htrim, if_neg
    (by rw [n.numeralLength_append hunit]; exact hlength), n.toDouble_readNumeral hunit]

variable (hne : unit ≠ "") (hparts : hasSeveralParts unit = false)

include hne hparts

/-- A numeral comes off its unit. -/
theorem withoutUnit_numeral (n : Numeral) :
    withoutUnit (String.ofList n.text ++ unit) (some unit) = .number n.toDouble := by
  have hsuffix : unit.toList.isSuffixOf (String.ofList n.text ++ unit).toList = true := by
    rw [List.isSuffixOf_iff_suffix, String.toList_append]
    exact List.suffix_append _ _
  have hsingle : hasSeveralParts (String.ofList n.text ++ unit) = false := by
    unfold hasSeveralParts at hparts ⊢
    rw [String.toList_append, String.toList_ofList, List.any_append, hparts, Bool.or_false,
      List.any_eq_false]
    intro c hc
    have hnumeral := n.isNumeralChar_of_mem_text hc
    simp [isBlank_of_isNumeralChar hnumeral, ne_comma_of_isNumeralChar hnumeral]
  unfold withoutUnit
  dsimp only
  rw [hsuffix, hsingle, beq_eq_false_iff_ne.2 hne, leadingNumber?_numeral hunit]
  rfl

end

/-- The text of a finite number is a numeral. -/
theorem exists_numberText {n : Double} (h : n.isFinite = true) : ∃ m : Numeral,
    String.ofList m.text = Value.numberText n ∧ m.toDouble = n.unsignedZero := by
  cases n with
  | nan => cases h
  | infinite => cases h
  | finite negative code =>
    by_cases hzero : code.val = 0
    · refine ⟨⟨[], ['0'], none, none, List.mem_cons_self, Number.isDigits_zeros 1, nofun,
        .inl (List.cons_ne_nil _ _)⟩, ?_, ?_⟩
      · rw [Value.numberText, if_pos hzero]
        rfl
      · have hcode : code = ⟨0, by decide⟩ := Fin.ext hzero
        rw [Double.unsignedZero, hcode]
        simp [Numeral.toDouble, Numeral.decimal, Number.Decimal.toDouble, Number.natOfDigits,
          Double.ofCode, Double.magnitudes]
    · obtain ⟨m, htext, hvalue, -⟩ :=
        Value.numberFormat.exists_signed negative code.isLt hzero
      refine ⟨m, ?_, ?_⟩
      · rw [Value.numberText, if_neg hzero, htext]
      · rw [hvalue, Double.ofCode_of_lt negative code.isLt, Double.unsignedZero]
        simp [hzero]

/-- A finite number comes off the unit that is written behind it. -/
theorem withoutUnit_numberText {n : Double} (h : n.isFinite = true) {unit : String}
    (hunit : IsBehind unit.toList) (hne : unit ≠ "") (hparts : hasSeveralParts unit = false) :
    withoutUnit (Value.numberText n ++ unit) (some unit) = .number n.unsignedZero := by
  obtain ⟨m, htext, hvalue⟩ := exists_numberText h
  rw [← htext, withoutUnit_numeral hunit hne hparts, hvalue]

end Style

end Restyle
