import Restyle.Proofs.LongestNumerals
import Restyle.Proofs.Units

/-!
# Texts that are numbers

A reader of numbers takes a text as a whole or refuses it.  Behind a sign it asks for digits, a point with
further digits and an exponent, and for nothing behind them; where that fails it asks for one of three
words.  It knows nothing of numerals at the front of longer texts.

It takes the numerals, each for the double that it denotes, it takes the words, and it refuses all else
(`readNumber_eq_ok_iff`).
-/

namespace Restyle.Number

/-- Why a text is refused. -/
inductive Refusal where
  | empty
  | invalid
  deriving Repr, DecidableEq

/-- The digits behind a point, and what stands behind them. -/
def cutFraction : List Char → List Char × List Char
  | '.' :: cs => (cs.takeWhile Char.isDigit, cs.dropWhile Char.isDigit)
  | cs => ([], cs)

/-- The number of an exponent with its mark.  Nothing stands for zero. -/
def exponent? : List Char → Option Int
  | [] => some 0
  | mark :: cs =>
    let digits := cs.drop (signLength cs)
    if (mark == 'e' || mark == 'E') && !digits.isEmpty && digits.all Char.isDigit then
      some (if cs.head? == some '-' then -natOfDigits digits else natOfDigits digits)
    else none

/-- The number of a text without its sign. -/
def unsigned? (negative : Bool) (cs : List Char) : Option Decimal :=
  let whole := cs.takeWhile Char.isDigit
  let (fraction, rest) := cutFraction (cs.dropWhile Char.isDigit)
  if (whole ++ fraction).isEmpty then none
  else (exponent? rest).map fun exponent =>
    ⟨negative, natOfDigits (whole ++ fraction), exponent - fraction.length⟩

/-- The number that a word stands for, in letters of either case. -/
def word? (negative : Bool) (cs : List Char) : Option Double :=
  let word := cs.map Char.toLower
  if word = ['i', 'n', 'f'] ∨ word = ['i', 'n', 'f', 'i', 'n', 'i', 't', 'y'] then
    some (.infinite negative)
  else if word = ['n', 'a', 'n'] then some .nan
  else none

/-- The double nearest to the number that a text is. -/
def readNumber (cs : List Char) : Except Refusal Double :=
  if cs.isEmpty then .error .empty
  else
    let negative := cs.head? == some '-'
    let unsigned := cs.drop (signLength cs)
    match unsigned? negative unsigned, word? negative unsigned with
    | some d, _ => .ok d.toDouble
    | none, some x => .ok x
    | none, none => .error .invalid

/-! ## Signs -/

/-- A text starts with a minus if that is the sign at its front. -/
theorem head?_eq_minus (cs : List Char) :
    (cs.head? == some '-') = decide (cs.take (signLength cs) = ['-']) := by
  cases cs with
  | nil => rfl
  | cons c cs =>
    unfold signLength
    split
    · next heq => cases heq; rfl
    · next heq => cases heq; rfl
    · next hminus =>
      have hne : c ≠ '-' := fun hc => hminus cs (by rw [hc])
      simp [hne]

section

variable {sign rest : List Char} (hsign : IsSign sign) (hrest : signLength rest = 0)

include hsign hrest

theorem head?_sign_append : ((sign ++ rest).head? == some '-') = decide (sign = ['-']) := by
  rw [head?_eq_minus, signLength_append hsign hrest, List.take_left]

theorem drop_signLength_append : (sign ++ rest).drop (signLength (sign ++ rest)) = rest := by
  rw [signLength_append hsign hrest, List.drop_left]

end

/-! ## The parts of a number -/

/-- What is taken for an exponent is one or nothing. -/
theorem exponent?_eq_some_iff {cs : List Char} {v : Int} : exponent? cs = some v ↔
    ∃ e : Option Exponent, e.elim [] Exponent.text = cs ∧ e.elim 0 Exponent.value = v := by
  cases cs with
  | nil =>
    constructor
    · intro h
      exact ⟨none, rfl, Option.some.inj h⟩
    · rintro ⟨_ | e, htext, rfl⟩
      · rfl
      · cases htext
  | cons mark cs =>
    unfold exponent?
    dsimp only
    rw [head?_eq_minus]
    constructor
    · intro h
      rw [Option.ite_none_right_eq_some] at h
      obtain ⟨hparts, hv⟩ := h
      simp only [Bool.and_eq_true, Bool.or_eq_true, beq_iff_eq, Bool.not_eq_true',
        List.isEmpty_eq_false_iff, List.all_eq_true] at hparts
      let e : Exponent :=
        { mark := mark
          sign := cs.take (signLength cs)
          digits := cs.drop (signLength cs)
          isMark := hparts.1.1
          isSign := isSign_take cs
          isDigits := hparts.2
          nonempty := hparts.1.2 }
      refine ⟨some e, ?_, ?_⟩
      · change mark :: (cs.take (signLength cs) ++ cs.drop (signLength cs)) = mark :: cs
        rw [List.take_append_drop]
      · rw [← Option.some.inj hv]
        change (if cs.take (signLength cs) = ['-'] then _ else _) = _
        by_cases hminus : cs.take (signLength cs) = ['-'] <;> simp [hminus, e]
    · rintro ⟨_ | e, htext, rfl⟩
      · cases htext
      · have hdigits := signLength_digits e.isDigits e.nonempty []
        rw [List.append_nil] at hdigits
        obtain ⟨rfl, rfl⟩ := List.cons.inj htext
        rw [drop_signLength_append e.isSign hdigits, ← head?_eq_minus,
          head?_sign_append e.isSign hdigits, if_pos]
        · simp only [Option.elim_some, Exponent.value, decide_eq_true_eq]
        · simp only [Bool.and_eq_true, Bool.or_eq_true, beq_iff_eq, Bool.not_eq_true',
            List.isEmpty_eq_false_iff, List.all_eq_true]
          exact ⟨⟨e.isMark, e.nonempty⟩, e.isDigits⟩

/-- What is taken for a point is one with its digits or nothing. -/
theorem exists_cutFraction (cs : List Char) : ∃ fraction : Option (List Char),
    fraction.elim [] ('.' :: ·) ++ (cutFraction cs).2 = cs ∧
      (cutFraction cs).1 = fraction.getD [] ∧ ∀ ds ∈ fraction, IsDigits ds := by
  unfold cutFraction
  split
  · next cs =>
    refine ⟨some (cs.takeWhile Char.isDigit), ?_, rfl, ?_⟩
    · rw [Option.elim_some, List.cons_append, List.takeWhile_append_dropWhile]
    · rintro ds ⟨⟩
      exact isDigits_takeWhile cs
  · exact ⟨none, rfl, rfl, nofun⟩

section

variable (n : Numeral)

theorem cutFraction_text :
    cutFraction (n.pointText ++ n.exponentText) = (n.fraction.getD [], n.exponentText) := by
  rcases hfraction : n.fraction with _ | ds
  · rw [n.pointText_of_none hfraction, List.nil_append]
    unfold cutFraction
    split
    · next cs heq => exact absurd heq (n.exponentText_no_point cs)
    · rfl
  · have hdigits := n.isDigits_fraction ds hfraction
    rw [n.pointText_of_some hfraction, List.cons_append, cutFraction,
      takeWhile_isDigit_append hdigits n.digitsLength_at_exponent,
      dropWhile_isDigit_append hdigits n.digitsLength_at_exponent, Option.getD_some]

theorem unsigned?_unsigned : unsigned? (decide (n.sign = ['-'])) n.unsigned = some n.decimal := by
  have hsome : (n.whole ++ n.fraction.getD []).isEmpty = false := by
    rw [List.isEmpty_eq_false_iff]
    rcases n.nonempty with hwhole | ⟨ds, hds, hne⟩
    · simp [hwhole]
    · simp [Option.mem_def.1 hds, hne]
  have hexponent : exponent? n.exponentText = some (n.exponent.elim 0 Exponent.value) :=
    exponent?_eq_some_iff.2 ⟨n.exponent, n.exponentText_eq_elim.symm, rfl⟩
  unfold unsigned?
  dsimp only
  rw [Numeral.unsigned, takeWhile_isDigit_append n.isDigits_whole n.digitsLength_behind_whole,
    dropWhile_isDigit_append n.isDigits_whole n.digitsLength_behind_whole, cutFraction_text,
    hsome, hexponent]
  unfold Numeral.decimal
  cases n.exponent <;> rfl

end

/-- What is taken without its sign is a numeral. -/
theorem exists_of_unsigned? {sign cs : List Char} (hsign : IsSign sign) {d : Decimal}
    (h : unsigned? (decide (sign = ['-'])) cs = some d) :
    ∃ n : Numeral, n.text = sign ++ cs ∧ n.decimal = d := by
  unfold unsigned? at h
  dsimp only at h
  obtain ⟨fraction, hcut, hfraction, hdigits⟩ := exists_cutFraction (cs.dropWhile Char.isDigit)
  rw [hfraction] at h
  obtain ⟨hsome, h⟩ := Option.ite_none_left_eq_some.1 h
  obtain ⟨v, hexponent, rfl⟩ := Option.map_eq_some_iff.1 h
  obtain ⟨e, htext, rfl⟩ := exponent?_eq_some_iff.1 hexponent
  let n : Numeral :=
    { sign := sign
      whole := cs.takeWhile Char.isDigit
      fraction := fraction
      exponent := e
      isSign := hsign
      isDigits_whole := isDigits_takeWhile cs
      isDigits_fraction := hdigits
      nonempty := by
        rw [List.isEmpty_iff, List.append_eq_nil_iff, not_and_or] at hsome
        refine hsome.imp_right fun hne => ?_
        cases fraction with
        | none => exact absurd rfl hne
        | some ds => exact ⟨ds, rfl, hne⟩ }
  refine ⟨n, ?_, ?_⟩
  · rw [Numeral.text, Numeral.unsigned, n.pointText_eq_elim, n.exponentText_eq_elim]
    change sign ++ (cs.takeWhile Char.isDigit ++ (fraction.elim [] ('.' :: ·) ++
      e.elim [] Exponent.text)) = sign ++ cs
    rw [htext, hcut, List.takeWhile_append_dropWhile]
  · unfold Numeral.decimal
    cases e <;> rfl

/-! ## Words -/

/-- A word starts with a letter. -/
theorem exists_letter_of_word? {negative : Bool} {cs : List Char} {x : Double}
    (h : word? negative cs = some x) : ∃ c rest, cs = c :: rest ∧ c.isAlpha = true := by
  have hletter : ∀ c ∈ (cs.map Char.toLower).head?, c.isAlpha = true := by
    unfold word? at h
    dsimp only at h
    split at h
    · next hword => rcases hword with hword | hword <;> rw [hword] <;> rintro c ⟨⟩ <;> rfl
    · split at h
      · next hword => rw [hword]; rintro c ⟨⟩; rfl
      · cases h
  cases cs with
  | nil => cases h
  | cons c rest =>
    exact ⟨c, rest, rfl, Text.isAlpha_of_toLower (hletter _ rfl)⟩

/-- Nothing that starts with a letter is a number. -/
theorem unsigned?_letter {c : Char} (h : c.isAlpha = true) (negative : Bool) (cs : List Char) :
    unsigned? negative (c :: cs) = none := by
  have hdigit := Text.isDigit_of_isAlpha h
  have hpoint : c ≠ '.' := by rintro rfl; cases h
  have hcut : cutFraction (c :: cs) = ([], c :: cs) := by
    unfold cutFraction
    split
    · next heq => exact absurd (List.cons.inj heq).1 hpoint
    · rfl
  unfold unsigned?
  simp [hdigit, hcut]

theorem signLength_letter {c : Char} (h : c.isAlpha = true) (cs : List Char) :
    signLength (c :: cs) = 0 := by
  unfold signLength
  split
  · next heq => obtain ⟨rfl, -⟩ := List.cons.inj heq; cases h
  · next heq => obtain ⟨rfl, -⟩ := List.cons.inj heq; cases h
  · rfl

/-! ## What the reader takes -/

/-- **A text is taken as a number if it is a numeral or a word for a number.**  A numeral is read as the
double that it denotes. -/
theorem readNumber_eq_ok_iff {cs : List Char} {x : Double} : readNumber cs = .ok x ↔
    (∃ n : Numeral, n.text = cs ∧ n.toDouble = x) ∨
      ∃ sign word, IsSign sign ∧ sign ++ word = cs ∧ word? (decide (sign = ['-'])) word = some x := by
  unfold readNumber
  dsimp only
  constructor
  · intro h
    rw [head?_eq_minus] at h
    have hsign := isSign_take cs
    have hcs := List.take_append_drop (signLength cs) cs
    split at h
    · cases h
    · split at h
      · next d _ hd =>
        obtain ⟨n, htext, rfl⟩ := exists_of_unsigned? hsign hd
        exact .inl ⟨n, htext.trans hcs, Except.ok.inj h⟩
      · next y _ hy =>
        obtain rfl := Except.ok.inj h
        exact .inr ⟨_, _, hsign, hcs, hy⟩
      · cases h
  · rintro (⟨n, rfl, rfl⟩ | ⟨sign, word, hsign, rfl, hx⟩)
    · have hunsigned := n.signLength_unsigned []
      rw [List.append_nil] at hunsigned
      have hne : n.text.isEmpty = false := List.isEmpty_eq_false_iff.2 n.text_ne_nil
      rw [hne, n.head?_text, Numeral.text, drop_signLength_append n.isSign hunsigned,
        unsigned?_unsigned]
      rfl
    · obtain ⟨c, cs, rfl, hletter⟩ := exists_letter_of_word? hx
      have hrest := signLength_letter hletter cs
      have hne : (sign ++ c :: cs).isEmpty = false := by simp
      rw [hne, head?_sign_append hsign hrest, drop_signLength_append hsign hrest,
        unsigned?_letter hletter, hx]
      rfl

end Restyle.Number
