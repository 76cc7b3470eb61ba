import Restyle.Number.Format
import Restyle.Proofs.Rounding

/-!
# Numerals

A numeral in its parts.  At the front of a text it is found with its whole length when what stands
behind it does not go on with it (`Numeral.numeralLength_append`), and the number that it denotes is
that of its digits, its point and its exponent (`Numeral.readNumeral_text`).

The text of a finite number is a numeral whatever the format (`Format.exists_signed`), and the double
nearest to it is the number itself.
-/

namespace Restyle.Number

/-! ## Rows of digits -/

/-- Digits only. -/
def IsDigits (cs : List Char) : Prop :=
  ∀ c ∈ cs, c.isDigit = true

theorem isDigits_toDigits (n : Nat) : IsDigits (Nat.toDigits 10 n) := fun _ hc =>
  Nat.isDigit_of_mem_toDigits (by decide) (Nat.le_refl _) hc

theorem isDigits_zeros (k : Nat) : IsDigits (List.replicate k '0') := fun c hc => by
  rw [List.eq_of_mem_replicate hc]
  rfl

theorem IsDigits.append {cs ds : List Char} (h : IsDigits cs) (h' : IsDigits ds) :
    IsDigits (cs ++ ds) := fun c hc =>
  (List.mem_append.1 hc).elim (h c) (h' c)

theorem IsDigits.of_subset {cs ds : List Char} (h : IsDigits ds) (hsub : cs ⊆ ds) : IsDigits cs :=
  fun c hc => h c (hsub hc)

section

variable {ds rest : List Char} (h : IsDigits ds) (hrest : digitsLength rest = 0)

include h hrest

theorem takeWhile_isDigit_append : (ds ++ rest).takeWhile Char.isDigit = ds := by
  rw [List.takeWhile_append_of_pos h, List.length_eq_zero_iff.1 hrest, List.append_nil]

theorem dropWhile_isDigit_append : (ds ++ rest).dropWhile Char.isDigit = rest := by
  have hsplit := List.takeWhile_append_dropWhile (p := Char.isDigit) (l := ds ++ rest)
  rw [takeWhile_isDigit_append h hrest] at hsplit
  exact List.append_cancel_left hsplit

theorem digitsLength_append : digitsLength (ds ++ rest) = ds.length := by
  rw [digitsLength, takeWhile_isDigit_append h hrest]

end

theorem digitsLength_cons {c : Char} (h : c.isDigit = false) (cs : List Char) :
    digitsLength (c :: cs) = 0 := by
  rw [digitsLength, List.takeWhile_cons, h]
  rfl

theorem natOfDigits_eq (cs : List Char) : natOfDigits cs = Nat.ofDigitChars 10 cs 0 := by
  unfold natOfDigits Nat.ofDigitChars
  simp only [Nat.mul_comm 10]
  rfl

theorem natOfDigits_toDigits (n : Nat) : natOfDigits (Nat.toDigits 10 n) = n := by
  rw [natOfDigits_eq, Nat.ofDigitChars_ten_toDigits]

/-- The digits of a number other than zero do not start with a zero. -/
theorem head?_toDigits {n : Nat} (h : n ≠ 0) : (Nat.toDigits 10 n).head? ≠ some '0' := by
  induction n using Nat.strongRecOn with
  | ind n ih =>
    rcases Nat.lt_or_ge n 10 with hsmall | hlarge
    · rw [Nat.toDigits_of_lt_base hsmall]
      exact fun hzero => h (Nat.digitChar_eq_zero.1 (Option.some.inj hzero))
    · have hfront := ih (n / 10) (by omega) (by omega)
      rw [Nat.toDigits_of_base_le (by decide) hlarge]
      obtain ⟨c, cs, hcons⟩ := List.exists_cons_of_ne_nil
        (Nat.toDigits_ne_nil (b := 10) (n := n / 10))
      rwa [hcons] at hfront ⊢

/-- Zeros behind the digits of a number make it greater. -/
theorem natOfDigits_append_zeros (cs : List Char) (k : Nat) :
    natOfDigits (cs ++ List.replicate k '0') = natOfDigits cs * 10 ^ k := by
  rw [natOfDigits_eq, natOfDigits_eq, Nat.ofDigitChars_append, Nat.ofDigitChars_replicate_zero,
    Nat.mul_comm]

/-- Zeros in front of the digits of a number do not count. -/
theorem natOfDigits_zeros_append (k : Nat) (cs : List Char) :
    natOfDigits (List.replicate k '0' ++ cs) = natOfDigits cs := by
  rw [natOfDigits_eq, natOfDigits_eq, Nat.ofDigitChars_append, Nat.ofDigitChars_replicate_zero,
    Nat.mul_zero]

/-! ## Numerals -/

/-- A sign or nothing. -/
def IsSign (cs : List Char) : Prop :=
  cs ∈ [[], ['+'], ['-']]

/-- The exponent of a numeral, with its mark. -/
structure Exponent where
  mark : Char
  sign : List Char
  digits : List Char
  isMark : mark = 'e' ∨ mark = 'E'
  isSign : IsSign sign
  isDigits : IsDigits digits
  nonempty : digits ≠ []

/-- A numeral in its parts.  It has a digit on at least one side of the point. -/
structure Numeral where
  sign : List Char
  whole : List Char
  /-- The digits behind the point, if there is a point. -/
  fraction : Option (List Char)
  exponent : Option Exponent
  isSign : IsSign sign
  isDigits_whole : IsDigits whole
  isDigits_fraction : ∀ ds ∈ fraction, IsDigits ds
  nonempty : whole ≠ [] ∨ ∃ ds ∈ fraction, ds ≠ []

/-- A numeral without a plus sign, without zeros in front of other digits, and with digits on both
sides of its point. -/
structure Numeral.IsTidy (n : Numeral) : Prop where
  sign : n.sign ≠ ['+']
  whole : n.whole ≠ []
  lead : n.whole = ['0'] ∨ n.whole.head? ≠ some '0'
  fraction : ∀ ds ∈ n.fraction, ds ≠ []

/-- What does not go on with a numeral in front of it: no digit, no point and no exponent. -/
structure IsBehind (rest : List Char) : Prop where
  digits : digitsLength rest = 0
  point : ∀ cs, rest ≠ '.' :: cs
  exponent : exponentLength rest = 0

theorem isBehind_nil : IsBehind [] :=
  ⟨rfl, nofun, rfl⟩

/-- What starts with a character that no part of a numeral starts with. -/
theorem isBehind_cons {c : Char} (hdigit : c.isDigit = false) (hpoint : c ≠ '.') (he : c ≠ 'e')
    (hE : c ≠ 'E') (cs : List Char) : IsBehind (c :: cs) := by
  refine ⟨digitsLength_cons hdigit cs, fun _ h => hpoint (List.cons.inj h).1, ?_⟩
  rw [exponentLength, if_neg (by simp [he, hE])]

theorem signLength_append {sign : List Char} (hsign : IsSign sign) {cs : List Char}
    (h : signLength cs = 0) : signLength (sign ++ cs) = sign.length := by
  simp only [IsSign, List.mem_cons, List.not_mem_nil, or_false] at hsign
  rcases hsign with rfl | rfl | rfl
  · exact h
  · rfl
  · rfl

theorem signLength_of_isDigit {c : Char} (h : c.isDigit = true) (cs : List Char) :
    signLength (c :: cs) = 0 := by
  have hplus : c ≠ '+' := by rintro rfl; cases h
  have hminus : c ≠ '-' := by rintro rfl; cases h
  unfold signLength
  split
  · next heq => exact absurd (List.cons.inj heq).1 hplus
  · next heq => exact absurd (List.cons.inj heq).1 hminus
  · rfl

theorem signLength_digits {ds : List Char} (h : IsDigits ds) (hne : ds ≠ []) (rest : List Char) :
    signLength (ds ++ rest) = 0 := by
  obtain ⟨d, ds, rfl⟩ := List.exists_cons_of_ne_nil hne
  exact signLength_of_isDigit (h d List.mem_cons_self) _

namespace Exponent

variable (e : Exponent)

def text : List Char :=
  e.mark :: (e.sign ++ e.digits)

/-- The exponent as a number. -/
def value : Int :=
  if e.sign = ['-'] then -natOfDigits e.digits else natOfDigits e.digits

theorem exponentLength_append {rest : List Char} (hrest : digitsLength rest = 0) :
    exponentLength (e.text ++ rest) = e.text.length := by
  have hmark : (e.mark == 'e' || e.mark == 'E') = true := by
    rcases e.isMark with h | h <;> rw [h] <;> rfl
  have hsign := signLength_append e.isSign (signLength_digits e.isDigits e.nonempty rest)
  have hlength : 0 < e.digits.length := List.length_pos_iff.2 e.nonempty
  obtain ⟨n, hn⟩ : ∃ n, e.digits.length = n + 1 := ⟨e.digits.length - 1, by omega⟩
  rw [text, List.cons_append, List.append_assoc, exponentLength, if_pos hmark]
  dsimp only
  rw [hsign, List.drop_left, digitsLength_append e.isDigits hrest, hn]
  simp only [List.length_cons, List.length_append, hn]
  omega

theorem readExponent_text : readExponent e.text = e.value := by
  have hdigits := signLength_digits e.isDigits e.nonempty []
  obtain ⟨d, ds, hcons⟩ := List.exists_cons_of_ne_nil e.nonempty
  have hd : d.isDigit = true := e.isDigits d (hcons ▸ List.mem_cons_self)
  have hsign := e.isSign
  simp only [IsSign, List.mem_cons, List.not_mem_nil, or_false] at hsign
  unfold text value
  rcases hsign with h | h | h
  · rw [h, List.nil_append, hcons]
    unfold readExponent
    split
    · next heq => cases heq
    · next heq => cases heq; cases hd
    · next heq => cases heq; cases hd
    · next heq => cases heq; rfl
  · rw [h]; rfl
  · rw [h]; rfl

/-- The exponent of a number in the form with an exponent. -/
def ofInt (top : Int) : Exponent where
  mark := 'e'
  sign := if top < 0 then ['-'] else ['+']
  digits := Nat.toDigits 10 top.natAbs
  isMark := .inl rfl
  isSign := by split <;> simp [IsSign]
  isDigits := isDigits_toDigits _
  nonempty := Nat.toDigits_ne_nil

theorem text_ofInt (top : Int) : (ofInt top).text =
    'e' :: (if top < 0 then '-' else '+') :: Nat.toDigits 10 top.natAbs := by
  rw [text, ofInt]
  split <;> rfl

theorem value_ofInt (top : Int) : (ofInt top).value = top := by
  rw [value, ofInt]
  rcases lt_or_ge top 0 with hsmall | hlarge
  · simp only [natOfDigits_toDigits, if_pos hsmall, if_true]
    omega
  · have hsign : ¬['+'] = ['-'] := by decide
    simp only [natOfDigits_toDigits, if_neg hlarge.not_gt, if_neg hsign]
    omega

end Exponent

namespace Numeral

variable (n : Numeral)

/-- The point and the digits behind it. -/
def pointText : List Char :=
  match n.fraction with
  | some ds => '.' :: ds
  | none => []

def exponentText : List Char :=
  match n.exponent with
  | some e => e.text
  | none => []

def unsigned : List Char :=
  n.whole ++ (n.pointText ++ n.exponentText)

def text : List Char :=
  n.sign ++ n.unsigned

/-- The decimal number that a numeral denotes. -/
def decimal : Decimal where
  negative := n.sign = ['-']
  digits := natOfDigits (n.whole ++ n.fraction.getD [])
  exponent := (n.exponent.map Exponent.value).getD 0 - (n.fraction.getD []).length

def toDouble : Double :=
  n.decimal.toDouble

theorem digitsLength_exponentText {rest : List Char} (hrest : digitsLength rest = 0) :
    digitsLength (n.exponentText ++ rest) = 0 := by
  unfold exponentText
  split
  · next e _ =>
    refine digitsLength_cons ?_ _
    rcases e.isMark with h | h <;> rw [h] <;> rfl
  · exact hrest

theorem digitsLength_pointText {rest : List Char} (hrest : digitsLength rest = 0) :
    digitsLength (n.pointText ++ (n.exponentText ++ rest)) = 0 := by
  unfold pointText
  split
  · exact digitsLength_cons rfl _
  · exact n.digitsLength_exponentText hrest

theorem pointText_of_some {ds : List Char} (h : n.fraction = some ds) : n.pointText = '.' :: ds := by
  rw [pointText, h]

theorem pointText_of_none (h : n.fraction = none) : n.pointText = [] := by
  rw [pointText, h]

theorem pointText_eq_elim : n.pointText = n.fraction.elim [] ('.' :: ·) := by
  unfold pointText
  cases n.fraction <;> rfl

theorem exponentText_eq_elim : n.exponentText = n.exponent.elim [] Exponent.text := by
  unfold exponentText
  cases n.exponent <;> rfl

theorem text_ne_nil : n.text ≠ [] := by
  intro h
  simp only [text, unsigned, List.append_eq_nil_iff] at h
  obtain ⟨-, hwhole, hpoint, -⟩ := h
  obtain ⟨ds, hds, -⟩ := n.nonempty.resolve_left fun hne => hne hwhole
  rw [n.pointText_of_some hds] at hpoint
  cases hpoint

theorem signLength_unsigned (rest : List Char) : signLength (n.unsigned ++ rest) = 0 := by
  rw [unsigned, List.append_assoc]
  by_cases hwhole : n.whole = []
  · obtain ⟨ds, hds, -⟩ := n.nonempty.resolve_left fun hne => hne hwhole
    rw [hwhole, n.pointText_of_some hds]
    rfl
  · exact signLength_digits n.isDigits_whole hwhole _

theorem signLength_text (rest : List Char) : signLength (n.text ++ rest) = n.sign.length := by
  rw [text, List.append_assoc]
  exact signLength_append n.isSign (n.signLength_unsigned rest)

section

variable {rest : List Char} (hrest : IsBehind rest)

include hrest

theorem exponentText_ne_point (cs : List Char) : n.exponentText ++ rest ≠ '.' :: cs := by
  unfold exponentText
  split
  · next e _ =>
    intro h
    have hmark := (List.cons.inj h).1
    rcases e.isMark with he | he <;> rw [he] at hmark <;> cases hmark
  · exact hrest.point cs

theorem fractionLength_append :
    fractionLength n.whole.length (n.pointText ++ (n.exponentText ++ rest)) =
      n.pointText.length := by
  have hbehind := n.digitsLength_exponentText hrest.digits
  unfold pointText
  split
  · next ds hds =>
    have hlength := digitsLength_append (n.isDigits_fraction ds hds) hbehind
    have hdigit : ¬(n.whole.length = 0 && ds.length = 0) = true := by
      rcases n.nonempty with hwhole | ⟨es, hes, hne⟩
      · simp [hwhole]
      · obtain rfl := Option.some.inj (hds.symm.trans (Option.mem_def.1 hes))
        simp [hne]
    rw [List.cons_append, fractionLength, hlength, if_neg hdigit, List.length_cons, Nat.add_comm]
  · rw [List.nil_append]
    unfold fractionLength
    split
    · next cs heq => exact absurd heq (n.exponentText_ne_point hrest cs)
    · rfl

theorem exponentLength_exponentText :
    exponentLength (n.exponentText ++ rest) = n.exponentText.length := by
  unfold exponentText
  split
  · next e _ => exact e.exponentLength_append hrest.digits
  · exact hrest.exponent

/-- A numeral is found with its whole length. -/
theorem numeralLength_append : numeralLength (n.text ++ rest) = n.text.length := by
  have hwhole := digitsLength_append n.isDigits_whole (n.digitsLength_pointText hrest.digits)
  have hfraction := n.fractionLength_append hrest
  have hexponent := n.exponentLength_exponentText hrest
  have htext : n.text ++ rest =
      n.sign ++ (n.whole ++ (n.pointText ++ (n.exponentText ++ rest))) := by
    simp [text, unsigned]
  have hnonempty : n.whole.length + n.pointText.length ≠ 0 := by
    rcases n.nonempty with hne | ⟨ds, hds, -⟩
    · have hpos := List.length_pos_iff.2 hne
      omega
    · rw [n.pointText_of_some hds, List.length_cons]
      omega
  unfold numeralLength
  dsimp only
  rw [n.signLength_text, htext, List.drop_left, hwhole]
  simp only [← List.drop_drop, List.drop_left, hfraction, hexponent]
  rw [if_neg hnonempty, text, unsigned]
  simp only [List.length_append]
  omega

end

theorem digitsLength_behind_whole : digitsLength (n.pointText ++ n.exponentText) = 0 := by
  have h := n.digitsLength_pointText isBehind_nil.digits
  rwa [List.append_nil] at h

theorem digitsLength_at_exponent : digitsLength n.exponentText = 0 := by
  have h := n.digitsLength_exponentText isBehind_nil.digits
  rwa [List.append_nil] at h

theorem exponentText_no_point (cs : List Char) : n.exponentText ≠ '.' :: cs := by
  have h := n.exponentText_ne_point isBehind_nil cs
  rwa [List.append_nil] at h

theorem head?_text : (n.text.head? == some '-') = decide (n.sign = ['-']) := by
  have hunsigned := n.signLength_unsigned []
  have hsign := n.isSign
  simp only [IsSign, List.mem_cons, List.not_mem_nil, or_false] at hsign
  rw [List.append_nil] at hunsigned
  rw [text]
  rcases hsign with h | h | h
  · rw [h, List.nil_append]
    have hhead : n.unsigned.head? ≠ some '-' := by
      intro hhead
      obtain ⟨cs, hcs⟩ := List.head?_eq_some_iff.1 hhead
      rw [hcs] at hunsigned
      cases hunsigned
    simp [hhead]
  · rw [h]; rfl
  · rw [h]; rfl

/-- A numeral denotes what its parts say. -/
theorem readNumeral_text : readNumeral n.text = n.decimal := by
  have hsign := n.signLength_text []
  have hexponent : readExponent n.exponentText = (n.exponent.map Exponent.value).getD 0 := by
    unfold exponentText
    split
    · next e he => rw [he, e.readExponent_text]; rfl
    · next he => rw [he]; rfl
  rw [List.append_nil] at hsign
  unfold readNumeral
  dsimp only
  have hdrop : n.text.drop n.sign.length = n.unsigned := List.drop_left
  rw [n.head?_text, hsign, hdrop, unsigned,
    takeWhile_isDigit_append n.isDigits_whole n.digitsLength_behind_whole,
    dropWhile_isDigit_append n.isDigits_whole n.digitsLength_behind_whole, decimal]
  rcases hfraction : n.fraction with _ | ds
  · rw [n.pointText_of_none hfraction, List.nil_append]
    split
    · next cs heq => exact absurd heq (n.exponentText_no_point cs)
    · rw [hexponent, Option.getD_none]
  · have hdigits := n.isDigits_fraction ds hfraction
    simp only [n.pointText_of_some hfraction, List.cons_append,
      takeWhile_isDigit_append hdigits n.digitsLength_at_exponent,
      dropWhile_isDigit_append hdigits n.digitsLength_at_exponent, hexponent, Option.getD_some]

theorem toDouble_readNumeral {rest : List Char} (hrest : IsBehind rest) :
    (readNumeral ((n.text ++ rest).take (numeralLength (n.text ++ rest)))).toDouble = n.toDouble := by
  rw [n.numeralLength_append hrest, List.take_left, n.readNumeral_text, toDouble]

end Numeral

/-! ## Numbers as numerals -/

namespace Format

/-- The sign in front of a number. -/
def signText (negative : Bool) : List Char :=
  if negative then ['-'] else []

theorem isSign_signText (negative : Bool) : IsSign (signText negative) := by
  cases negative <;> simp [IsSign, signText]

theorem decide_signText (negative : Bool) : decide (signText negative = ['-']) = negative := by
  cases negative <;> rfl

/-- Digits with a sign in front, and with more of them behind a point and an exponent if there is
one. -/
theorem exists_ofParts (negative : Bool) {whole : List Char} (hwhole : IsDigits whole)
    (hne : whole ≠ []) (hlead : whole = ['0'] ∨ whole.head? ≠ some '0')
    {fraction : Option (List Char)} (hfraction : ∀ ds ∈ fraction, IsDigits ds ∧ ds ≠ [])
    (exponent : Option Exponent) : ∃ n : Numeral,
      n.text = signText negative ++
        (whole ++ (fraction.elim [] ('.' :: ·) ++ exponent.elim [] Exponent.text)) ∧
      n.toDouble = Decimal.toDouble ⟨negative, natOfDigits (whole ++ fraction.getD []),
        (exponent.map Exponent.value).getD 0 - (fraction.getD []).length⟩ ∧
      n.IsTidy ∧ n.fraction = fraction ∧ n.exponent = exponent := by
  refine ⟨⟨signText negative, whole, fraction, exponent, isSign_signText negative, hwhole,
    fun ds hds => (hfraction ds hds).1, .inl hne⟩, ?_, ?_, ?_, rfl, rfl⟩
  · cases fraction <;> cases exponent <;> rfl
  · rw [Numeral.toDouble, Numeral.decimal, decide_signText]
  · have hsign : signText negative ≠ ['+'] := by cases negative <;> decide
    exact ⟨hsign, hne, hlead, fun ds hds => (hfraction ds hds).2⟩

/-- A tidy numeral of the number that digits with a leading power of ten and a sign denote. -/
structure Writes (n : Numeral) (negative : Bool) (digits : List Char) (top : Int)
    (text : List Char) : Prop where
  text : n.text = signText negative ++ text
  value : n.toDouble = Decimal.toDouble ⟨negative, natOfDigits digits, top + 1 - digits.length⟩
  tidy : n.IsTidy

section

variable (f : Format) (negative : Bool) {digits : List Char} (h : IsDigits digits)
  (hne : digits ≠ []) (hlead : digits = ['0'] ∨ digits.head? ≠ some '0')

include h hne

/-- Below one, zeros on both sides of the point come in front of the digits. -/
theorem exists_positional_of_neg {top : Int} (htop : top < 0) : ∃ n : Numeral,
    Writes n negative digits top (f.positional digits top) ∧ n.fraction ≠ none ∧
      n.exponent = none := by
  have hdigits := (isDigits_zeros (-top - 1).toNat).append h
  have hsome : List.replicate (-top - 1).toNat '0' ++ digits ≠ [] := by simp [hne]
  obtain ⟨n, htext, hdouble, htidy, hfraction, hnone⟩ := exists_ofParts negative
    (isDigits_zeros 1) (List.cons_ne_nil _ _) (.inl rfl)
    (fun _ heq => Option.some.inj heq ▸ ⟨hdigits, hsome⟩) none
  refine ⟨n, ⟨?_, ?_, htidy⟩, by rw [hfraction]; exact Option.some_ne_none _, hnone⟩
  · rw [htext, positional, if_pos htop]
    simp
  · have hvalue : natOfDigits (List.replicate 1 '0' ++ (List.replicate (-top - 1).toNat '0' ++
        digits)) = natOfDigits digits :=
      (natOfDigits_zeros_append 1 _).trans (natOfDigits_zeros_append _ _)
    have hexponent : 0 - (((List.replicate (-top - 1).toNat '0' ++ digits).length : Nat) : Int) =
        top + 1 - digits.length := by
      rw [List.length_append, List.length_replicate]
      omega
    rw [hdouble, Option.getD_some, hvalue, Option.map_none, Option.getD_none, hexponent]

include hlead

/-- The point comes between the digits if they go on below one. -/
theorem exists_positional_of_lt {top : Int} (htop : 0 ≤ top)
    (hlength : top.toNat + 1 < digits.length) : ∃ n : Numeral,
    Writes n negative digits top (f.positional digits top) ∧ n.fraction ≠ none ∧
      n.exponent = none := by
  have hfront : digits.take (top.toNat + 1) ≠ [] := by simp [hne]
  have hhead : (digits.take (top.toNat + 1)).head? ≠ some '0' := by
    obtain ⟨d, ds, rfl⟩ := List.exists_cons_of_ne_nil hne
    refine hlead.resolve_left fun heq => ?_
    rw [heq] at hlength
    simp at hlength
  have hbehind : IsDigits (digits.drop (top.toNat + 1)) := h.of_subset (List.drop_subset _ _)
  have hsome : digits.drop (top.toNat + 1) ≠ [] := by simp [hlength]
  obtain ⟨n, htext, hdouble, htidy, hfraction, hnone⟩ := exists_ofParts negative
    (h.of_subset (List.take_subset _ _)) hfront (.inr hhead)
    (fun _ heq => Option.some.inj heq ▸ ⟨hbehind, hsome⟩) none
  refine ⟨n, ⟨?_, ?_, htidy⟩, by rw [hfraction]; exact Option.some_ne_none _, hnone⟩
  · rw [htext, positional, if_neg htop.not_gt]
    simp [hlength.not_ge]
  · have hexponent : 0 - ((digits.drop (top.toNat + 1)).length : Int) =
        top + 1 - digits.length := by
      rw [List.length_drop]
      omega
    rw [hdouble, Option.getD_some, List.take_append_drop, Option.map_none, Option.getD_none,
      hexponent]

/-- Zeros fill up what is left in front of the point, and one more stands behind it if there has to
be a point. -/
theorem exists_positional_of_le {top : Int} (htop : 0 ≤ top) (hzero : digits = ['0'] → top = 0)
    (hlength : digits.length ≤ top.toNat + 1) : ∃ n : Numeral,
    Writes n negative digits top (f.positional digits top) ∧
      (f.pointed = true → n.fraction ≠ none) ∧ n.exponent = none := by
  obtain ⟨k, hk⟩ : ∃ k, k = top.toNat + 1 - digits.length := ⟨_, rfl⟩
  have hwhole := h.append (isDigits_zeros k)
  have hnonempty : digits ++ List.replicate k '0' ≠ [] := by simp [hne]
  have hfront : digits ++ List.replicate k '0' = ['0'] ∨
      (digits ++ List.replicate k '0').head? ≠ some '0' := by
    rcases hlead with hdigits | hhead
    · refine .inl ?_
      obtain rfl : k = 0 := by rw [hk, hzero hdigits, hdigits]; rfl
      rw [hdigits]
      rfl
    · obtain ⟨d, ds, rfl⟩ := List.exists_cons_of_ne_nil hne
      exact .inr hhead
  have hexponent : top + 1 - digits.length = k := by omega
  suffices hwrites : ∃ n : Numeral, n.text = signText negative ++ (digits ++ List.replicate k '0' ++
      if f.pointed then ['.', '0'] else []) ∧
      n.toDouble = Decimal.toDouble ⟨negative, natOfDigits digits, k⟩ ∧ n.IsTidy ∧
      (f.pointed = true → n.fraction ≠ none) ∧ n.exponent = none by
    obtain ⟨n, htext, hdouble, htidy, hrest⟩ := hwrites
    refine ⟨n, ⟨?_, by rw [hdouble, hexponent], htidy⟩, hrest⟩
    rw [htext, positional, if_neg htop.not_gt]
    dsimp only
    rw [if_pos hlength, ← hk]
  cases f.pointed with
  | false =>
    have hnone : ∀ ds ∈ (none : Option (List Char)), IsDigits ds ∧ ds ≠ [] := nofun
    obtain ⟨n, htext, hdouble, htidy, -, hempty⟩ :=
      exists_ofParts negative hwhole hnonempty hfront hnone none
    refine ⟨n, by rw [htext]; simp, ?_, htidy, nofun, hempty⟩
    have hshift := Decimal.toDouble_mul_pow negative (natOfDigits digits) 0 k
    rw [Int.zero_add] at hshift
    rw [← hshift, hdouble, Option.getD_none, List.append_nil, natOfDigits_append_zeros]
    rfl
  | true =>
    obtain ⟨n, htext, hdouble, htidy, hfraction, hempty⟩ :=
      exists_ofParts negative hwhole hnonempty hfront
        (fun _ heq => Option.some.inj heq ▸ ⟨isDigits_zeros 1, List.cons_ne_nil _ _⟩) none
    refine ⟨n, by rw [htext]; simp, ?_, htidy,
      fun _ => by rw [hfraction]; exact Option.some_ne_none _, hempty⟩
    have hshift := Decimal.toDouble_mul_pow negative (natOfDigits digits) (-1) (k + 1)
    have hrow : digits ++ List.replicate k '0' ++ List.replicate 1 '0' =
        digits ++ List.replicate (k + 1) '0' := by
      rw [List.append_assoc, List.replicate_append_replicate]
    rw [show (-1 : Int) + (k + 1 : Nat) = k by omega] at hshift
    rw [← hshift, hdouble, Option.getD_some, hrow, natOfDigits_append_zeros]
    rfl

/-- The positional form is a numeral of the same number. -/
theorem exists_positional (top : Int) (hzero : digits = ['0'] → top = 0) : ∃ n : Numeral,
    Writes n negative digits top (f.positional digits top) ∧
      (f.pointed = true → n.fraction ≠ none) ∧ n.exponent = none := by
  rcases lt_or_ge top 0 with hsmall | hlarge
  · obtain ⟨n, hwrites, hfraction, hnone⟩ := exists_positional_of_neg f negative h hne hsmall
    exact ⟨n, hwrites, fun _ => hfraction, hnone⟩
  rcases Nat.lt_or_ge (top.toNat + 1) digits.length with hbroken | hwhole
  · obtain ⟨n, hwrites, hfraction, hnone⟩ :=
      exists_positional_of_lt f negative h hne hlead hlarge hbroken
    exact ⟨n, hwrites, fun _ => hfraction, hnone⟩
  · exact exists_positional_of_le f negative h hne hlead hlarge hzero hwhole

omit hlead in
/-- The form with an exponent is a numeral of the same number. -/
theorem exists_exponential (top : Int) : ∃ n : Numeral,
    Writes n negative digits top (exponential digits top) ∧ n.exponent = some (.ofInt top) := by
  obtain ⟨d, ds, rfl⟩ := List.exists_cons_of_ne_nil hne
  have hfront : IsDigits [d] := h.of_subset (by simp)
  have hlead : [d] = ['0'] ∨ [d].head? ≠ some '0' := by
    by_cases hd : d = '0'
    · exact .inl (by rw [hd])
    · exact .inr fun heq => hd (Option.some.inj heq)
  have hbehind : ∀ es ∈ if ds.isEmpty then none else some ds, IsDigits es ∧ es ≠ [] := by
    intro es hes
    split at hes
    · cases hes
    · next hempty =>
      obtain rfl := Option.some.inj hes
      exact ⟨h.of_subset (List.subset_cons_self _ _), fun hnil => hempty (List.isEmpty_iff.2 hnil)⟩
  obtain ⟨n, htext, hdouble, htidy, -, hsome⟩ := exists_ofParts negative hfront
    (List.cons_ne_nil _ _) hlead hbehind (some (.ofInt top))
  refine ⟨n, ⟨?_, ?_, htidy⟩, hsome⟩
  · rw [htext, exponential, Option.elim_some, Exponent.text_ofInt]
    cases ds <;> simp
  · have hfraction : (if ds.isEmpty then none else some ds).getD [] = ds := by
      cases ds <;> rfl
    rw [hdouble, hfraction, Option.map_some, Option.getD_some, Exponent.value_ofInt,
      List.singleton_append, List.length_cons]
    congr 2
    omega

end

/-- A finite number has its leading digit between the powers `-331` and `309` of ten, unless it is
zero. -/
theorem abs_top_le {code : Nat} (h : code < Double.magnitudes) (hne : code ≠ 0) {digits : Nat}
    {exponent : Int} (hread : Decimal.toDouble ⟨false, digits, exponent⟩ = Double.ofCode false code) :
    digits ≠ 0 ∧ (digitCount digits - 1 + exponent).natAbs ≤ 331 := by
  have hcode : Decimal.toDouble ⟨false, digits, exponent⟩ ≠ Double.ofCode false 0 := fun hzero =>
    hne (Double.ofCode_inj (by decide) (hread.symm.trans hzero))
  have hfinite : Decimal.toDouble ⟨false, digits, exponent⟩ ≠ .infinite false := by
    rw [hread, Double.ofCode_of_lt false h]
    exact nofun
  have hdigits : digits ≠ 0 := by
    rintro rfl
    exact hcode (Decimal.toDouble_zero _ _)
  have hleast : ¬digitCount digits + exponent < -330 := fun hsmall => hcode (by
    unfold Decimal.toDouble
    exact if_pos (by simp [hsmall]))
  have hgreatest : ¬310 < digitCount digits + exponent := fun hlarge => hfinite (by
    unfold Decimal.toDouble
    dsimp only
    rw [if_neg (by simp [hdigits]; omega), if_pos hlarge])
  exact ⟨hdigits, by omega⟩

/-- The text of a finite number other than zero is a tidy numeral of that number, with a moderate
exponent if it has one. -/
theorem exists_signed (f : Format) (negative : Bool) {code : Nat} (h : code < Double.magnitudes)
    (hne : code ≠ 0) : ∃ n : Numeral,
      n.text = f.signed negative code ∧ n.toDouble = Double.ofCode negative code ∧ n.IsTidy ∧
      (f.pointed = true → n.fraction ≠ none ∨ n.exponent ≠ none) ∧
      ∀ e ∈ n.exponent, natOfDigits e.digits ≤ 331 := by
  have hread := toDouble_shortest f.tie h
  obtain ⟨hcount, hbound⟩ := abs_top_le h hne (hread false)
  have hdigits := isDigits_toDigits (shortest f.tie code).digits
  have hsome : Nat.toDigits 10 (shortest f.tie code).digits ≠ [] := Nat.toDigits_ne_nil
  have hlead := head?_toDigits hcount
  have hzero : Nat.toDigits 10 (shortest f.tie code).digits ≠ ['0'] := fun heq =>
    hlead (by rw [heq]; rfl)
  have hsigned : f.signed negative code = signText negative ++ f.magnitude code := by
    cases negative <;> rfl
  rw [digitCount, if_neg hcount] at hbound
  rw [hsigned, magnitude, if_neg hne]
  obtain ⟨top, htop⟩ : ∃ top, top = ((Nat.toDigits 10 (shortest f.tie code).digits).length : Int) - 1 +
    (shortest f.tie code).exponent := ⟨_, rfl⟩
  have hexponent : top + 1 - (Nat.toDigits 10 (shortest f.tie code).digits).length =
      (shortest f.tie code).exponent := by omega
  have hvalue : ∀ {n : Numeral} {text : List Char},
      Writes n negative (Nat.toDigits 10 (shortest f.tie code).digits) top text →
        n.toDouble = Double.ofCode negative code := fun hwrites => by
    rw [hwrites.value, hexponent, natOfDigits_toDigits]
    exact hread negative
  rw [← htop] at hbound ⊢
  split
  · obtain ⟨n, hwrites, hfraction, hnone⟩ :=
      f.exists_positional negative hdigits hsome (.inr hlead) top (absurd · hzero)
    exact ⟨n, hwrites.text, hvalue hwrites, hwrites.tidy, fun hpointed => .inl (hfraction hpointed),
      by rw [hnone]; exact nofun⟩
  · obtain ⟨n, hwrites, hof⟩ := exists_exponential negative hdigits hsome top
    refine ⟨n, hwrites.text, hvalue hwrites, hwrites.tidy,
      fun _ => .inr (by rw [hof]; exact Option.some_ne_none _), ?_⟩
    rintro e he
    obtain rfl := Option.some.inj (hof.symm.trans he)
    rwa [Exponent.ofInt, natOfDigits_toDigits]

end Format

end Restyle.Number
