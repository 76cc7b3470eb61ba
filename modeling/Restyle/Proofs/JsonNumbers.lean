import Restyle.Json.Scalar
import Restyle.Proofs.Numerals

/-!
# Numbers in JSON texts are read back

In front of what may stand behind a value, the reader finds the lengths of the parts of a tidy numeral
(`readNumber_numeral`), so what it makes of the number depends on the numeral alone.  One with a point
or an exponent is read as the double that it denotes, a whole one of at most 64 bits as an integer.
The text of a finite double always has a point or an exponent (`readNumber_doubleText`), that of an
integer never has (`readNumber_integerText`).
-/

namespace Restyle.Json

open Number (Numeral Exponent IsDigits IsBehind Decimal digitsLength signLength natOfDigits
  digitsLength_append isDigits_toDigits isBehind_cons signLength_append signLength_digits)

/-- What may stand behind a value: nothing, white space, a comma or a closing bracket. -/
def IsValueEnd (rest : List Char) : Prop :=
  ∀ c ∈ rest.head?, c ∈ [' ', '\n', '\t', '\r', ',', ']', '\x7d']

theorem isValueEnd_nil : IsValueEnd [] := nofun

theorem isValueEnd_cons {c : Char} (h : c ∈ [' ', '\n', '\t', '\r', ',', ']', '\x7d'])
    (cs : List Char) : IsValueEnd (c :: cs) := fun _ hd => Option.some.inj hd ▸ h

namespace IsValueEnd

variable {rest : List Char} (h : IsValueEnd rest)

include h

theorem isBehind : IsBehind rest := by
  cases rest with
  | nil => exact Number.isBehind_nil
  | cons c cs =>
    have hc := h c rfl
    simp only [List.mem_cons, List.not_mem_nil, or_false] at hc
    rcases hc with rfl | rfl | rfl | rfl | rfl | rfl | rfl <;>
      exact isBehind_cons rfl (by decide) (by decide) (by decide) cs

theorem readExponentPart : readExponentPart rest = .ok 0 := by
  cases rest with
  | nil => rfl
  | cons c cs =>
    have hc := h c rfl
    simp only [List.mem_cons, List.not_mem_nil, or_false] at hc
    rcases hc with rfl | rfl | rfl | rfl | rfl | rfl | rfl <;> rfl

end IsValueEnd

theorem readDigits_append {ds : List Char} (h : IsDigits ds) (hne : ds ≠ []) {rest : List Char}
    (hrest : digitsLength rest = 0) : readDigits (ds ++ rest) = .ok ds.length := by
  have hlength := digitsLength_append h hrest
  obtain ⟨d, ds, rfl⟩ := List.exists_cons_of_ne_nil hne
  rw [List.cons_append] at hlength ⊢
  rw [readDigits, if_pos (h d List.mem_cons_self), hlength]

/-! ## The limit on exponents -/

theorem overLimit?_eq_none {ds : List Char} {exponent : Nat}
    (h : ds.foldl (fun n c => n * 10 + (c.toNat - 48)) exponent ≤ exponentLimit) :
    overLimit? exponent ds = none := by
  have hgrow : ∀ (ds : List Char) (n : Nat), n ≤ ds.foldl (fun n c => n * 10 + (c.toNat - 48)) n := by
    intro ds
    induction ds with
    | nil => exact fun n => Nat.le_refl n
    | cons d ds ih =>
      intro n
      have hstep := ih (n * 10 + (d.toNat - 48))
      rw [List.foldl_cons]
      omega
  induction ds generalizing exponent with
  | nil => rfl
  | cons d ds ih =>
    rw [List.foldl_cons] at h
    have hnext := (hgrow ds _).trans h
    rw [overLimit?]
    split
    · dsimp only
      rw [if_neg (Nat.not_lt.2 hnext), ih h]
    · rfl

/-! ## The parts of a numeral -/

section

variable {n : Numeral} {rest : List Char}

/-- The digits of the exponent of a tidy numeral stand behind its first characters. -/
theorem overLimit?_numeral (h : ∀ e ∈ n.exponent, natOfDigits e.digits ≤ exponentLimit) :
    overLimit? 0 ((n.exponentText.drop 1).drop (signLength (n.exponentText.drop 1))) = none := by
  cases hexponent : n.exponent with
  | none => rw [Numeral.exponentText, hexponent]; rfl
  | some e =>
    have htext : n.exponentText.drop 1 = e.sign ++ e.digits := by
      rw [Numeral.exponentText, hexponent]
      rfl
    have hdigits := signLength_digits e.isDigits e.nonempty []
    rw [List.append_nil] at hdigits
    rw [htext, signLength_append e.isSign hdigits, List.drop_left]
    exact overLimit?_eq_none (h e hexponent)

variable (htidy : n.IsTidy) (hend : IsValueEnd rest)

include htidy

theorem head?_numeral :
    (if (n.text ++ rest).head? == some '-' then 1 else 0) = n.sign.length := by
  obtain ⟨c, cs, hcons⟩ := List.exists_cons_of_ne_nil htidy.whole
  have hhead : (n.text ++ rest).head? = n.text.head? := by
    cases hsign : n.sign <;> simp [Numeral.text, Numeral.unsigned, hsign, hcons]
  have hsign := n.isSign
  simp only [Number.IsSign, List.mem_cons, List.not_mem_nil, or_false] at hsign
  rw [hhead, n.head?_text]
  rcases hsign with h | h | h
  · rw [h]; rfl
  · exact absurd h htidy.sign
  · rw [h]; rfl

include hend

theorem readWhole_numeral :
    readWhole (n.whole ++ (n.pointText ++ (n.exponentText ++ rest))) = .ok n.whole.length := by
  have hbehind := n.digitsLength_pointText hend.isBehind.digits
  rcases htidy.lead with hzero | hlead
  · rw [hzero]
    cases hcons : n.pointText ++ (n.exponentText ++ rest) with
    | nil => rfl
    | cons c cs =>
      have hdigit : c.isDigit = false := by
        rw [hcons, digitsLength, List.takeWhile_cons] at hbehind
        by_contra hd
        rw [if_pos (by simpa using hd)] at hbehind
        cases hbehind
      rw [List.singleton_append, readWhole, hdigit]
      rfl
  · have hread := readDigits_append n.isDigits_whole htidy.whole hbehind
    rw [← hread]
    unfold readWhole
    split
    · next heq =>
      obtain ⟨d, ds, hcons⟩ := List.exists_cons_of_ne_nil htidy.whole
      rw [hcons] at heq hlead
      exact absurd (congrArg some (List.cons.inj heq).1) hlead
    · rfl

theorem readFraction_numeral :
    readFraction (n.pointText ++ (n.exponentText ++ rest)) = .ok n.pointText.length := by
  cases hfraction : n.fraction with
  | none =>
    rw [n.pointText_of_none hfraction, List.nil_append]
    unfold readFraction
    split
    · next cs heq => exact absurd heq (n.exponentText_ne_point hend.isBehind cs)
    · rfl
  | some ds =>
    have hread := readDigits_append (n.isDigits_fraction ds hfraction) (htidy.fraction ds hfraction)
      (n.digitsLength_exponentText hend.isBehind.digits)
    rw [n.pointText_of_some hfraction, List.cons_append, readFraction, hread, List.length_cons,
      Nat.add_comm]
    rfl

omit htidy in
theorem readExponentPart_numeral :
    readExponentPart (n.exponentText ++ rest) = .ok n.exponentText.length := by
  unfold Numeral.exponentText
  split
  · next e _ =>
    have hmark : (e.mark == 'e' || e.mark == 'E') = true := by
      rcases e.isMark with h | h <;> rw [h] <;> rfl
    have hsign := signLength_append e.isSign (signLength_digits e.isDigits e.nonempty rest)
    rw [Exponent.text, List.cons_append, List.append_assoc, readExponentPart, if_pos hmark]
    dsimp only
    rw [hsign, List.drop_left, readDigits_append e.isDigits e.nonempty hend.isBehind.digits,
      List.length_cons, List.length_append]
    exact congrArg Except.ok (by omega)
  · exact hend.readExponentPart

/-- A number is read from its numeral alone. -/
theorem readNumber_numeral (hexponent : ∀ e ∈ n.exponent, natOfDigits e.digits ≤ exponentLimit) :
    readNumber (n.text ++ rest) =
      if (n.pointText ++ n.exponentText).isEmpty &&
          (if n.sign.length = 0 then n.decimal.digits < Nat.pow 2 64
            else n.decimal.digits != 0 && n.decimal.digits ≤ Nat.pow 2 63) then
        .ok (.integer (if n.sign.length = 0 then n.decimal.digits else -n.decimal.digits),
          n.text.length)
      else if n.toDouble.isFinite then .ok (.double n.toDouble, n.text.length)
      else failAt .numberOutOfRange rest := by
  have htext : n.text ++ rest =
      n.sign ++ (n.whole ++ (n.pointText ++ (n.exponentText ++ rest))) := by
    simp [Numeral.text, Numeral.unsigned]
  have hlength : n.text.length =
      n.sign.length + n.whole.length + n.pointText.length + n.exponentText.length := by
    simp only [Numeral.text, Numeral.unsigned, List.length_append]
    omega
  have hbehind : n.text.drop (n.sign.length + n.whole.length + n.pointText.length + 1) =
      n.exponentText.drop 1 := by
    rw [← List.drop_drop, ← List.drop_drop, ← List.drop_drop, Numeral.text, List.drop_left,
      Numeral.unsigned, List.drop_left, List.drop_left]
  have hempty : (n.text.length == n.sign.length + n.whole.length) =
      (n.pointText ++ n.exponentText).isEmpty := by
    rw [hlength, Bool.eq_iff_iff, beq_iff_eq, List.isEmpty_iff, ← List.length_eq_zero_iff,
      List.length_append]
    omega
  unfold readNumber
  simp only [bind, Except.bind, pure, Except.pure]
  rw [head?_numeral htidy, htext, List.drop_left, readWhole_numeral htidy hend]
  dsimp only
  rw [← List.drop_drop, List.drop_left, List.drop_left, readFraction_numeral htidy hend]
  dsimp only
  rw [← List.drop_drop, ← List.drop_drop, List.drop_left, List.drop_left, List.drop_left,
    readExponentPart_numeral hend]
  dsimp only
  rw [← htext, ← hlength, List.take_left, hbehind, overLimit?_numeral hexponent,
    n.readNumeral_text, List.drop_left, hempty]
  rfl

end

/-! ## Doubles -/

theorem digits_shortest_zero (tie : Number.Tie) : (Number.shortest tie 0).digits = 0 := by
  have hsignificand : Double.significand 0 = 0 := by decide
  have hexact : (Number.Digits.exact 0).digits = 0 := by
    rcases Number.Digits.exact_cases 0 with ⟨k, -, heq⟩ | ⟨k, -, heq⟩ <;>
      rw [heq, hsignificand, Nat.zero_mul]
  have hsearch : (Number.Digits.exact 0).search tie 0
      (Number.digitCount (Number.Digits.exact 0).digits - 1) = Number.Digits.exact 0 := by
    rw [hexact]
    rfl
  unfold Number.shortest
  dsimp only
  rw [hsearch, hexact, Number.Digits.normalize, dif_neg (by simp)]

/-- The text of a finite double is a tidy numeral of it with a point or an exponent. -/
theorem exists_doubleText (negative : Bool) (code : Fin Double.magnitudes) : ∃ n : Numeral,
    n.text = doubleText (.finite negative code) ∧ n.toDouble = .finite negative code ∧ n.IsTidy ∧
      (n.fraction ≠ none ∨ n.exponent ≠ none) ∧
      ∀ e ∈ n.exponent, natOfDigits e.digits ≤ exponentLimit := by
  have hcode := Double.ofCode_of_lt negative code.isLt
  by_cases hzero : code.val = 0
  · obtain ⟨n, hwrites, hfraction, hnone⟩ := doubleFormat.exists_positional negative
      (Number.isDigits_zeros 1) (List.cons_ne_nil _ _) (.inl rfl) 0 fun _ => rfl
    have htext : doubleText (.finite negative code) =
        Number.Format.signText negative ++ doubleFormat.positional ['0'] 0 := by
      rw [doubleText, hzero, Number.Format.signed, Number.Format.magnitude, digits_shortest_zero]
      cases negative <;> rfl
    refine ⟨n, by rw [htext]; exact hwrites.text, ?_, hwrites.tidy, .inl (hfraction rfl), ?_⟩
    · rw [hwrites.value, ← hcode, hzero]
      exact Decimal.toDouble_zero _ _
    · simp [hnone]
  · obtain ⟨n, htext, hvalue, htidy, hbroken, hexponent⟩ :=
      doubleFormat.exists_signed negative code.isLt hzero
    refine ⟨n, htext, hvalue.trans hcode, htidy, hbroken rfl, fun e he => (hexponent e he).trans ?_⟩
    decide

/-- A finite double is read back from its text. -/
theorem readNumber_doubleText {d : Double} (h : d.isFinite = true) {rest : List Char}
    (hend : IsValueEnd rest) :
    readNumber (doubleText d ++ rest) = .ok (.double d, (doubleText d).length) := by
  cases d with
  | nan => cases h
  | infinite => cases h
  | finite negative code =>
    obtain ⟨n, htext, hvalue, htidy, hbroken, hexponent⟩ := exists_doubleText negative code
    have hparts : (n.pointText ++ n.exponentText).isEmpty = false := by
      rcases hbroken with hsome | hsome
      · obtain ⟨ds, hds⟩ := Option.ne_none_iff_exists'.1 hsome
        rw [n.pointText_of_some hds]
        rfl
      · obtain ⟨e, he⟩ := Option.ne_none_iff_exists'.1 hsome
        rw [Numeral.exponentText, he]
        cases n.pointText <;> rfl
    rw [← htext, readNumber_numeral htidy hend hexponent, hparts, hvalue]
    rfl

/-! ## Integers -/

theorem isSign_ite (p : Prop) [Decidable p] : Number.IsSign (if p then ['-'] else []) := by
  split <;> simp [Number.IsSign]

theorem isDigits_natAbs (i : Int) : IsDigits (Nat.toDigits 10 i.natAbs) :=
  isDigits_toDigits i.natAbs

/-- The numeral of an integer. -/
def integerNumeral (i : Int) : Numeral where
  sign := if i < 0 then ['-'] else []
  whole := Nat.toDigits 10 i.natAbs
  fraction := none
  exponent := none
  isSign := isSign_ite _
  isDigits_whole := isDigits_natAbs i
  isDigits_fraction := nofun
  nonempty := .inl Nat.toDigits_ne_nil

theorem text_integerNumeral (i : Int) : (integerNumeral i).text = integerText i := by
  rw [Numeral.text, Numeral.unsigned, integerText]
  simp only [integerNumeral, Numeral.pointText, Numeral.exponentText, List.append_nil]
  split <;> rfl

theorem isTidy_integerNumeral (i : Int) : (integerNumeral i).IsTidy where
  sign := by
    simp only [integerNumeral]
    split <;> decide
  whole := Nat.toDigits_ne_nil
  lead := by
    by_cases hzero : i.natAbs = 0
    · exact .inl (by simp only [integerNumeral, hzero]; rfl)
    · exact .inr (Number.head?_toDigits hzero)
  fraction := nofun

theorem digits_integerNumeral (i : Int) : (integerNumeral i).decimal.digits = i.natAbs := by
  simp only [integerNumeral, Numeral.decimal, Option.getD_none, List.append_nil,
    Number.natOfDigits_toDigits]

/-- An integer of at most 64 bits is read back from its text. -/
theorem readNumber_integerText {i : Int} (hleast : -(2 ^ 63) ≤ i) (hgreatest : i < 2 ^ 64)
    {rest : List Char} (hend : IsValueEnd rest) :
    readNumber (integerText i ++ rest) = .ok (.integer i, (integerText i).length) := by
  have hempty : ((integerNumeral i).pointText ++ (integerNumeral i).exponentText).isEmpty = true := rfl
  rw [← text_integerNumeral, readNumber_numeral (isTidy_integerNumeral i) hend nofun, hempty,
    digits_integerNumeral]
  rcases lt_or_ge i 0 with hneg | hpos
  · have hsign : (integerNumeral i).sign.length = 1 := by simp only [integerNumeral, if_pos hneg]; rfl
    have hrange : (i.natAbs != 0 && decide (i.natAbs ≤ Nat.pow 2 63)) = true := by
      simp only [Nat.pow_eq, Bool.and_eq_true, bne_iff_ne, decide_eq_true_eq]
      omega
    have hvalue : (-(i.natAbs : Int)) = i := by omega
    simp only [hsign, Nat.one_ne_zero, if_false, hrange, Bool.and_true, if_true, hvalue]
  · have hsign : (integerNumeral i).sign.length = 0 := by
      simp only [integerNumeral, if_neg hpos.not_gt]
      rfl
    have hrange : decide (i.natAbs < Nat.pow 2 64) = true := by
      simp only [Nat.pow_eq, decide_eq_true_eq]
      omega
    have hvalue : (i.natAbs : Int) = i := by omega
    simp only [hsign, if_true, hrange, Bool.and_true, hvalue]

end Restyle.Json
