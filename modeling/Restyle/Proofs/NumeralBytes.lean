import Restyle.Proofs.AcceptedNumbers
import Restyle.Proofs.TextBytes
import Restyle.Proofs.UnitEndings

/-!
# Numerals byte by byte

A scanner that works on bytes goes from part to part of a numeral.  It looks for digits from a place on, and
gives back a point or an exponent that turns out to have none.  Then it cuts the text at the place where it
has stopped and hands the front to the reader of numbers, which may refuse it.

Neither happens: no cut has a fault, and no numeral is refused.  Only characters of one byte stand in front
of every place that the scanner gets to, and each step keeps this (`isAsciiTo_sign`, `isAsciiTo_digits`,
`fractionEnd_eq`, `exponentEnd_eq`).  So it stops where a scanner of characters does, behind the longest
numeral.
-/

namespace Restyle.Number

open Text (CutFault IsAsciiTo bytes bytesFrom upTo)

def isDigitByte (b : UInt8) : Bool :=
  '0'.toUInt8 ≤ b && b ≤ '9'.toUInt8

/-- How many digits stand from a place on. -/
def digitsAt (bs : List UInt8) (place : Nat) : Except CutFault Nat := do
  let rest ← bytesFrom bs place
  return (rest.takeWhile isDigitByte).length

/-- How many digits stand from a place on, where a place behind the end counts as the end. -/
def digitsFrom (bs : List UInt8) (place : Nat) : Except CutFault Nat :=
  digitsAt bs (min place bs.length)

/-! ## The scanner -/

section

variable (digits : List UInt8 → Nat → Except CutFault Nat) (bs : List UInt8)

/-- The length of a sign at a place. -/
def signWidth (place : Nat) : Nat :=
  if bs[place]? == some '+'.toUInt8 || bs[place]? == some '-'.toUInt8 then 1 else 0

/-- How many digits stand behind a point at a place, and where the point and the digits end.  A point
without digits on either side is given back. -/
def fractionEnd (whole place : Nat) : Except CutFault (Nat × Nat) :=
  if bs[place]? == some '.'.toUInt8 then do
    let fraction ← digits bs (place + 1)
    return (fraction, if 0 < whole ∨ 0 < fraction then place + 1 + fraction else place)
  else return (0, place)

/-- Where an exponent at a place ends.  An exponent without digits is given back. -/
def exponentEnd (place : Nat) : Except CutFault Nat :=
  if bs[place]? == some 'e'.toUInt8 || bs[place]? == some 'E'.toUInt8 then do
    let start := place + 1 + signWidth bs (place + 1)
    let count ← digits bs start
    return if 0 < count then start + count else place
  else return place

/-- Where the numeral at the front ends, if there is one. -/
def numeralEnd : Except CutFault (Option Nat) := do
  let sign := signWidth bs 0
  let whole ← digits bs sign
  let (fraction, mantissa) ← fractionEnd digits bs whole (sign + whole)
  if whole = 0 ∧ fraction = 0 then return none
  return some (← exponentEnd digits bs mantissa)

end

/-- The numeral at the front of a text, white space aside. -/
def scannedNumeral (text : String) : Except CutFault (Option String) := do
  let text := String.ofList (Text.trimStart text.toList)
  match ← numeralEnd digitsFrom (bytes text) with
  | none => return none
  | some place => return some (← upTo text place)

/-- The number of the numeral at the front of a text, unless the reader of numbers refuses it. -/
def scannedNumber (text : String) : Except CutFault (Option Double) := do
  match ← scannedNumeral text with
  | none => return none
  | some numeral => return (readNumber numeral.toList).toOption

/-! ## Digits -/

/-- The bytes of characters of several bytes are no digits. -/
theorem isDigitByte_of_le {b : UInt8} (h : 0x80 ≤ b) : isDigitByte b = false := by
  have hlt : '9'.toUInt8 < b := UInt8.lt_of_lt_of_le (by decide) h
  rw [isDigitByte, decide_eq_false (UInt8.not_le.2 hlt), Bool.and_false]

theorem isDigitByte_toUInt8 {c : Char} (h : c.utf8Size = 1) : isDigitByte c.toUInt8 = c.isDigit := by
  rw [Bool.eq_iff_iff, Text.isDigit_iff, isDigitByte, Bool.and_eq_true, decide_eq_true_eq,
    decide_eq_true_eq, UInt8.le_iff_toNat_le, UInt8.le_iff_toNat_le, Text.toNat_toUInt8 h]
  exact and_congr_right fun _ => Nat.lt_succ_iff.symm

theorem utf8Size_of_isDigit {c : Char} (h : c.isDigit = true) : c.utf8Size = 1 := by
  rw [Text.isDigit_iff] at h
  exact Text.utf8Size_of_toNat_lt (by omega)

/-- Digits are counted alike in bytes and in characters. -/
theorem length_takeWhile_bytes (cs : List Char) :
    ((bytes (String.ofList cs)).takeWhile isDigitByte).length = digitsLength cs := by
  induction cs with
  | nil => rw [Text.bytes_ofList]; rfl
  | cons c cs ih =>
    rw [digitsLength, List.takeWhile_cons]
    by_cases hc : c.utf8Size = 1
    · rw [Text.bytes_cons_of_utf8Size hc, List.takeWhile_cons, isDigitByte_toUInt8 hc]
      split
      · rw [List.length_cons, ih, List.length_cons]
        rfl
      · rfl
    · obtain ⟨b, bs, hbytes, hle⟩ := Text.exists_first_byte hc
      have hdigit : c.isDigit = false := Bool.eq_false_iff.2 fun h => hc (utf8Size_of_isDigit h)
      rw [Text.bytes_cons, hbytes, List.cons_append, List.takeWhile_cons,
        isDigitByte_of_le hle, hdigit]
      rfl

section

variable {cs : List Char} {place : Nat}

theorem digitsAt_eq (h : IsAsciiTo cs place) :
    digitsAt (bytes (String.ofList cs)) place = .ok (digitsLength (cs.drop place)) := by
  rw [digitsAt, bytesFrom, if_pos h.le_length_bytes, h.drop_bytes, ← length_takeWhile_bytes]
  rfl

theorem digitsFrom_eq (h : IsAsciiTo cs place) :
    digitsFrom (bytes (String.ofList cs)) place = .ok (digitsLength (cs.drop place)) := by
  rw [digitsFrom, Nat.min_eq_left h.le_length_bytes, digitsAt_eq h]

/-- Digits are passed in one step. -/
theorem isAsciiTo_digits (h : IsAsciiTo cs place) :
    IsAsciiTo cs (place + digitsLength (cs.drop place)) := by
  have hascii : ∀ c ∈ (cs.drop place).takeWhile Char.isDigit, c.utf8Size = 1 := fun c hc =>
    utf8Size_of_isDigit (isDigits_takeWhile (cs.drop place) c hc)
  have hfront := IsAsciiTo.of_append hascii ((cs.drop place).dropWhile Char.isDigit)
  rw [List.takeWhile_append_dropWhile] at hfront
  exact h.add hfront

end

/-! ## The characters in front of the parts -/

theorem signLength_eq_ite (cs : List Char) :
    signLength cs = if cs.head? == some '+' || cs.head? == some '-' then 1 else 0 := by
  unfold signLength
  split
  · rfl
  · rfl
  · next hplus hminus =>
    cases cs with
    | nil => rfl
    | cons c cs =>
      have hplus : c ≠ '+' := fun hc => hplus cs (hc ▸ rfl)
      have hminus : c ≠ '-' := fun hc => hminus cs (hc ▸ rfl)
      simp [hplus, hminus]

theorem fractionLength_point (whole : Nat) (cs : List Char) : fractionLength whole ('.' :: cs) =
    if whole = 0 ∧ digitsLength cs = 0 then 0 else 1 + digitsLength cs := by
  rw [fractionLength]
  simp only [Bool.and_eq_true, decide_eq_true_eq]

theorem fractionLength_of_head?_ne {cs : List Char} (h : cs.head? ≠ some '.') (whole : Nat) :
    fractionLength whole cs = 0 := by
  unfold fractionLength
  split
  · exact absurd rfl h
  · rfl

/-! ## One part behind another -/

section

variable {cs : List Char} {place : Nat} (h : IsAsciiTo cs place)

include h

theorem signWidth_eq : signWidth (bytes (String.ofList cs)) place = signLength (cs.drop place) := by
  rw [signWidth, h.getElem?_bytes_beq (c := '+') rfl, h.getElem?_bytes_beq (c := '-') rfl,
    signLength_eq_ite]

theorem isAsciiTo_sign : IsAsciiTo cs (place + signLength (cs.drop place)) := by
  unfold signLength
  split
  · next heq => exact h.succ (c := '+') rfl (heq ▸ rfl)
  · next heq => exact h.succ (c := '-') rfl (heq ▸ rfl)
  · exact h

variable {digits : List UInt8 → Nat → Except CutFault Nat}
  (hdigits : ∀ p, IsAsciiTo cs p →
    digits (bytes (String.ofList cs)) p = .ok (digitsLength (cs.drop p)))

include hdigits

/-- A point is passed with its digits, unless it has none on either side. -/
theorem fractionEnd_eq (whole : Nat) : ∃ count,
    fractionEnd digits (bytes (String.ofList cs)) whole place =
      .ok (count, place + fractionLength whole (cs.drop place)) ∧
    (whole = 0 ∧ count = 0 ↔ whole + fractionLength whole (cs.drop place) = 0) ∧
    IsAsciiTo cs (place + fractionLength whole (cs.drop place)) := by
  unfold fractionEnd
  rw [h.getElem?_bytes_beq (c := '.') rfl]
  by_cases hhead : (cs.drop place).head? = some '.'
  · obtain ⟨rest, hrest⟩ := List.head?_eq_some_iff.1 hhead
    have hnext : IsAsciiTo cs (place + 1) := h.succ rfl hhead
    have hbehind : cs.drop (place + 1) = rest := by rw [← List.tail_drop, hrest, List.tail_cons]
    have hend := isAsciiTo_digits hnext
    rw [if_pos (beq_iff_eq.2 hhead), hdigits _ hnext, hrest, fractionLength_point]
    rw [hbehind] at hend ⊢
    by_cases hnone : whole = 0 ∧ digitsLength rest = 0
    · rw [if_pos hnone, hnone.1, hnone.2]
      exact ⟨0, rfl, by simp, h⟩
    · rw [if_neg hnone, ← Nat.add_assoc]
      refine ⟨digitsLength rest, ?_, by omega, hend⟩
      simp only [bind, Except.bind, pure, Except.pure]
      rw [if_pos (by omega)]
  · rw [if_neg (by simpa using hhead), fractionLength_of_head?_ne hhead]
    exact ⟨0, rfl, by omega, h⟩

/-- An exponent is passed with its sign and its digits, unless it has no digits. -/
theorem exponentEnd_eq :
    exponentEnd digits (bytes (String.ofList cs)) place =
      .ok (place + exponentLength (cs.drop place)) ∧
    IsAsciiTo cs (place + exponentLength (cs.drop place)) := by
  unfold exponentEnd
  dsimp only
  rw [h.getElem?_bytes_beq (c := 'e') rfl, h.getElem?_bytes_beq (c := 'E') rfl]
  by_cases hhead : ∃ mark rest, (mark = 'e' ∨ mark = 'E') ∧ cs.drop place = mark :: rest
  · obtain ⟨mark, rest, hmark, hrest⟩ := hhead
    have hsize : mark.utf8Size = 1 := by rcases hmark with rfl | rfl <;> rfl
    have hnext : IsAsciiTo cs (place + 1) := h.succ hsize (by rw [hrest]; rfl)
    have hbehind : cs.drop (place + 1) = rest := by rw [← List.tail_drop, hrest, List.tail_cons]
    have hstart := isAsciiTo_sign hnext
    have hend := isAsciiTo_digits hstart
    rw [signWidth_eq hnext, hdigits _ hstart, hrest, exponentLength_mark hmark,
      if_pos (by simpa using hmark)]
    rw [hbehind] at hend ⊢
    rw [← List.drop_drop, hbehind] at hend ⊢
    by_cases hnone : digitsLength (rest.drop (signLength rest)) = 0
    · rw [if_pos hnone, hnone]
      exact ⟨rfl, h⟩
    · rw [if_neg hnone, ← Nat.add_assoc, ← Nat.add_assoc]
      refine ⟨?_, hend⟩
      simp only [bind, Except.bind, pure, Except.pure]
      rw [if_pos (Nat.pos_of_ne_zero hnone)]
  · have hzero : exponentLength (cs.drop place) = 0 := by
      by_contra hne
      obtain ⟨e, rest, hrest, -⟩ := exists_exponent hne
      exact hhead ⟨e.mark, _, e.isMark, hrest⟩
    rw [hzero, if_neg]
    · exact ⟨rfl, h⟩
    · intro hmark
      rw [Bool.or_eq_true, beq_iff_eq, beq_iff_eq, List.head?_eq_some_iff,
        List.head?_eq_some_iff] at hmark
      rcases hmark with ⟨rest, hrest⟩ | ⟨rest, hrest⟩
      · exact hhead ⟨_, rest, .inl rfl, hrest⟩
      · exact hhead ⟨_, rest, .inr rfl, hrest⟩

end

/-- The scanner stops behind the numeral, and all in front of that place is numeral. -/
theorem numeralEnd_eq {cs : List Char} {digits : List UInt8 → Nat → Except CutFault Nat}
    (hdigits : ∀ p, IsAsciiTo cs p →
      digits (bytes (String.ofList cs)) p = .ok (digitsLength (cs.drop p))) :
    numeralEnd digits (bytes (String.ofList cs)) =
      .ok (if numeralLength cs = 0 then none else some (numeralLength cs)) ∧
    IsAsciiTo cs (numeralLength cs) := by
  have hzero := IsAsciiTo.zero cs
  have hsign := isAsciiTo_sign hzero
  have hsignWidth := signWidth_eq hzero
  rw [List.drop_zero] at hsign hsignWidth
  rw [Nat.zero_add] at hsign
  have hwhole := isAsciiTo_digits hsign
  obtain ⟨count, hfraction, hnone, hmantissa⟩ :=
    fractionEnd_eq hwhole hdigits (digitsLength (cs.drop (signLength cs)))
  obtain ⟨hexponent, hend⟩ := exponentEnd_eq hmantissa hdigits
  unfold numeralEnd numeralLength
  dsimp only
  rw [hsignWidth, hdigits _ hsign]
  simp only [bind, Except.bind, pure, Except.pure, hfraction, hexponent, hnone]
  split
  · exact ⟨rfl, hzero⟩
  · next hsome =>
    refine ⟨?_, hend⟩
    rw [if_neg]
    omega

/-! ## The numeral that is cut off -/

theorem scannedNumeral_of_isLongest {text : String} {n : Numeral}
    (h : n.IsLongest (Text.trimStart text.toList)) :
    scannedNumeral text = .ok (some (String.ofList n.text)) := by
  have hne : numeralLength (Text.trimStart text.toList) ≠ 0 := fun hzero =>
    numeralLength_eq_zero_iff.1 hzero n h.front
  obtain ⟨n', hn', htake⟩ := exists_isLongest hne
  obtain ⟨hend, hplace⟩ := numeralEnd_eq fun _ => digitsFrom_eq
  unfold scannedNumeral
  dsimp only
  rw [hend, if_neg hne]
  simp only [bind, Except.bind, pure, Except.pure, hplace.upTo_eq, htake, hn'.text_eq h]

theorem scannedNumeral_of_none {text : String}
    (h : ∀ n : Numeral, ¬n.text <+: Text.trimStart text.toList) : scannedNumeral text = .ok none := by
  obtain ⟨hend, -⟩ := numeralEnd_eq fun _ => digitsFrom_eq
  unfold scannedNumeral
  dsimp only
  rw [hend, if_pos (numeralLength_eq_zero_iff.2 h)]
  rfl

theorem readNumber_text (n : Numeral) : readNumber n.text = .ok n.toDouble :=
  readNumber_eq_ok_iff.2 (.inl ⟨n, rfl, rfl⟩)

/-- **The scanner takes the longest numeral at the front of any text, without a fault.**  What it cuts off
is that numeral, and the reader of numbers takes it; where there is no numeral, nothing is cut off.  It asks
for digits at places within the text only. -/
theorem scannedNumber_of_longest (text : String) :
    scannedNumber text = .ok (Style.leadingNumber? text) ∧
    (Style.leadingNumber? text = none ↔ ∀ n : Numeral, ¬n.text <+: Text.trimStart text.toList) ∧
    ((∀ n : Numeral, ¬n.text <+: Text.trimStart text.toList) ∧ scannedNumeral text = .ok none ∨
      ∃ n : Numeral, n.IsLongest (Text.trimStart text.toList) ∧
        scannedNumeral text = .ok (some (String.ofList n.text)) ∧
        readNumber n.text = .ok n.toDouble ∧ Style.leadingNumber? text = some n.toDouble) ∧
    numeralEnd digitsAt (bytes (String.ofList (Text.trimStart text.toList))) =
      numeralEnd digitsFrom (bytes (String.ofList (Text.trimStart text.toList))) := by
  have hplaces := (numeralEnd_eq (@digitsAt_eq (Text.trimStart text.toList))).1.trans
    (numeralEnd_eq fun _ => digitsFrom_eq).1.symm
  rcases hread : Style.leadingNumber? text with _ | x
  · have hnone := Style.leadingNumber?_eq_none_iff.1 hread
    have hcut := scannedNumeral_of_none hnone
    refine ⟨?_, iff_of_true rfl hnone, .inl ⟨hnone, hcut⟩, hplaces⟩
    rw [scannedNumber, hcut]
    rfl
  · obtain ⟨n, hn, rfl⟩ := Style.leadingNumber?_eq_some_iff.1 hread
    have hcut := scannedNumeral_of_isLongest hn
    refine ⟨?_, iff_of_false nofun fun hnone => hnone n hn.front,
      .inr ⟨n, hn, hcut, readNumber_text n, rfl⟩, hplaces⟩
    rw [scannedNumber, hcut]
    simp only [bind, Except.bind, pure, Except.pure, String.toList_ofList, readNumber_text,
      Except.toOption]

-- The exponent is given back, since it has a sign and no digits.
example : scannedNumeral "\u3000-1.5e+€" = .ok (some "-1.5") := by cbv

end Restyle.Number
