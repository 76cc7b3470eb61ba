import Restyle.Proofs.Numerals

/-!
# The longest numeral

Numerals can be cut short: `1.5e3` starts with `1`, `1.`, `1.5` and `1.5e3`, and all four are numerals.
`numeralLength` takes the longest.  What it takes is a numeral (`exists_numeral`), and no numeral at the
front of the text is longer, whatever stands behind it (`Numeral.length_le_numeralLength`).

Each part of a numeral is compared with what the scanner takes for that part.  A part that another part
follows is taken exactly, since no digit starts a point or an exponent; the last one may go on.
-/

namespace Restyle.Number

/-! ## Signs and digits at the front -/

theorem isSign_take (cs : List Char) : IsSign (cs.take (signLength cs)) := by
  unfold signLength
  split <;> simp [IsSign]

theorem length_take_signLength (cs : List Char) :
    (cs.take (signLength cs)).length = signLength cs := by
  have hle : signLength cs ≤ cs.length := by
    unfold signLength
    split <;> simp
  rw [List.length_take]
  omega

theorem isDigits_takeWhile (cs : List Char) : IsDigits (cs.takeWhile Char.isDigit) :=
  List.all_eq_true.1 List.all_takeWhile

/-- A text is cut behind its sign and behind the digits that follow the sign. -/
theorem take_append_takeWhile_append (cs : List Char) :
    cs.take (signLength cs) ++ ((cs.drop (signLength cs)).takeWhile Char.isDigit ++
      (cs.drop (signLength cs)).dropWhile Char.isDigit) = cs := by
  rw [List.takeWhile_append_dropWhile, List.take_append_drop]

theorem exponentLength_mark {c : Char} (h : c = 'e' ∨ c = 'E') (cs : List Char) :
    exponentLength (c :: cs) = if digitsLength (cs.drop (signLength cs)) = 0 then 0
      else 1 + signLength cs + digitsLength (cs.drop (signLength cs)) := by
  have hmark : (c == 'e' || c == 'E') = true := by
    rcases h with rfl | rfl <;> rfl
  rw [exponentLength, if_pos hmark]
  dsimp only
  cases digitsLength (cs.drop (signLength cs)) with
  | zero => rfl
  | succ n =>
    rw [if_neg (Nat.succ_ne_zero n)]
    dsimp only
    omega

/-! ## What is taken is a numeral -/

/-- An exponent that is taken is one. -/
theorem exists_exponent {cs : List Char} (h : exponentLength cs ≠ 0) :
    ∃ (e : Exponent) (rest : List Char), cs = e.text ++ rest ∧ exponentLength cs = e.text.length := by
  cases cs with
  | nil => exact absurd rfl h
  | cons c cs =>
    by_cases hmark : c = 'e' ∨ c = 'E'
    · rw [exponentLength_mark hmark] at h ⊢
      by_cases hdigits : digitsLength (cs.drop (signLength cs)) = 0
      · exact absurd (if_pos hdigits) h
      · let e : Exponent :=
          { mark := c
            sign := cs.take (signLength cs)
            digits := (cs.drop (signLength cs)).takeWhile Char.isDigit
            isMark := hmark
            isSign := isSign_take cs
            isDigits := isDigits_takeWhile _
            nonempty := fun hnil => hdigits (List.length_eq_zero_iff.2 hnil) }
        refine ⟨e, (cs.drop (signLength cs)).dropWhile Char.isDigit, ?_, ?_⟩
        · rw [Exponent.text, List.cons_append, List.append_assoc, take_append_takeWhile_append]
        · have hsign : e.sign.length = signLength cs := length_take_signLength cs
          have hlength : e.digits.length = digitsLength (cs.drop (signLength cs)) := rfl
          rw [if_neg hdigits, Exponent.text, List.length_cons, List.length_append, hsign, hlength]
          omega
    · rw [not_or] at hmark
      exact absurd (by rw [exponentLength, if_neg (by simp [hmark])]) h

/-- A point that is taken has digits behind it, unless there are some in front of it. -/
theorem exists_fraction {whole : Nat} {cs : List Char} (h : fractionLength whole cs ≠ 0) :
    ∃ ds rest, cs = '.' :: (ds ++ rest) ∧ IsDigits ds ∧ fractionLength whole cs = ds.length + 1 ∧
      (whole = 0 → ds ≠ []) := by
  unfold fractionLength at h
  split at h
  · next cs =>
    have htaken : ¬(decide (whole = 0) && decide (digitsLength cs = 0)) = true := by
      intro hnone
      exact h (if_pos hnone)
    refine ⟨cs.takeWhile Char.isDigit, cs.dropWhile Char.isDigit, ?_, isDigits_takeWhile _, ?_, ?_⟩
    · rw [List.takeWhile_append_dropWhile]
    · rw [fractionLength, if_neg htaken, digitsLength, Nat.add_comm]
    · intro hwhole hnil
      apply htaken
      rw [hwhole, digitsLength, hnil]
      rfl
  · exact absurd rfl h

/-- What the scanner takes for an exponent is one or nothing. -/
theorem exists_exponent? (cs : List Char) : ∃ (e : Option Exponent) (rest : List Char),
    cs = e.elim [] Exponent.text ++ rest ∧ exponentLength cs = (e.elim [] Exponent.text).length := by
  by_cases h : exponentLength cs = 0
  · exact ⟨none, cs, rfl, h⟩
  · obtain ⟨e, rest, hcs, hlength⟩ := exists_exponent h
    exact ⟨some e, rest, hcs, hlength⟩

/-- What the scanner takes for a point is one with digits or nothing. -/
theorem exists_fraction? (whole : Nat) (cs : List Char) :
    ∃ (fraction : Option (List Char)) (rest : List Char), cs = fraction.elim [] ('.' :: ·) ++ rest ∧
      fractionLength whole cs = (fraction.elim [] ('.' :: ·)).length ∧
      (∀ ds ∈ fraction, IsDigits ds ∧ (whole = 0 → ds ≠ [])) := by
  by_cases h : fractionLength whole cs = 0
  · exact ⟨none, cs, rfl, h, nofun⟩
  · obtain ⟨ds, rest, hcs, hdigits, hlength, hne⟩ := exists_fraction h
    refine ⟨some ds, rest, hcs, hlength, ?_⟩
    rintro ds' ⟨⟩
    exact ⟨hdigits, hne⟩

/-- The scanner takes a sign, digits, a point and an exponent, one behind the other. -/
theorem numeralLength_of_parts {cs sign whole point exponent rest : List Char}
    (hcs : cs = sign ++ (whole ++ (point ++ (exponent ++ rest))))
    (hsign : signLength cs = sign.length)
    (hwhole : digitsLength (whole ++ (point ++ (exponent ++ rest))) = whole.length)
    (hpoint : fractionLength whole.length (point ++ (exponent ++ rest)) = point.length)
    (hexponent : exponentLength (exponent ++ rest) = exponent.length) :
    numeralLength cs = if whole.length + point.length = 0 then 0
      else sign.length + whole.length + point.length + exponent.length := by
  unfold numeralLength
  dsimp only
  rw [hsign, hcs, List.drop_left, hwhole]
  simp only [← List.drop_drop, List.drop_left, hpoint, hexponent]

/-- What is taken from the front of a text is a numeral. -/
theorem exists_numeral {cs : List Char} (h : numeralLength cs ≠ 0) :
    ∃ (n : Numeral) (rest : List Char), cs = n.text ++ rest ∧ numeralLength cs = n.text.length := by
  have hsplit := take_append_takeWhile_append cs
  have hdigits : digitsLength ((cs.drop (signLength cs)).takeWhile Char.isDigit ++
      (cs.drop (signLength cs)).dropWhile Char.isDigit) =
        ((cs.drop (signLength cs)).takeWhile Char.isDigit).length := by
    rw [List.takeWhile_append_dropWhile]
    rfl
  have hiswhole := isDigits_takeWhile (cs.drop (signLength cs))
  generalize (cs.drop (signLength cs)).takeWhile Char.isDigit = whole at *
  obtain ⟨fraction, behind, hbehind, hfraction, hisfraction⟩ :=
    exists_fraction? whole.length ((cs.drop (signLength cs)).dropWhile Char.isDigit)
  obtain ⟨exponent, rest, hrest, hexponent⟩ := exists_exponent? behind
  rw [hbehind, hrest] at hsplit hdigits hfraction
  rw [hrest] at hexponent
  have hlength := numeralLength_of_parts hsplit.symm (length_take_signLength cs).symm hdigits hfraction
    hexponent
  have hsome : ¬whole.length + (fraction.elim [] ('.' :: ·)).length = 0 := by
    intro hzero
    exact h (hlength.trans (if_pos hzero))
  let n : Numeral :=
    { sign := cs.take (signLength cs)
      whole := whole
      fraction := fraction
      exponent := exponent
      isSign := isSign_take cs
      isDigits_whole := hiswhole
      isDigits_fraction := fun ds hds => (hisfraction ds hds).1
      nonempty := by
        by_cases hne : whole = []
        · cases fraction with
          | none => exact absurd (by rw [hne]; rfl) hsome
          | some ds => exact .inr ⟨ds, rfl, (hisfraction ds rfl).2 (by rw [hne]; rfl)⟩
        · exact .inl hne }
  have htext : n.text = cs.take (signLength cs) ++
      (whole ++ (fraction.elim [] ('.' :: ·) ++ exponent.elim [] Exponent.text)) := by
    rw [Numeral.text, Numeral.unsigned, n.pointText_eq_elim, n.exponentText_eq_elim]
  refine ⟨n, rest, ?_, ?_⟩
  · rw [htext]
    simpa only [List.append_assoc] using hsplit.symm
  · rw [hlength, if_neg hsome, htext]
    simp only [List.length_append]
    omega

/-! ## Nothing longer is a numeral -/

theorem le_digitsLength_append {ds : List Char} (h : IsDigits ds) (rest : List Char) :
    ds.length ≤ digitsLength (ds ++ rest) := by
  rw [digitsLength, List.takeWhile_append_of_pos h, List.length_append]
  exact Nat.le_add_right _ _

theorem fractionLength_digits {whole : Nat} {ds : List Char} (hds : IsDigits ds)
    (h : whole ≠ 0 ∨ ds ≠ []) (rest : List Char) :
    fractionLength whole ('.' :: (ds ++ rest)) = 1 + digitsLength (ds ++ rest) := by
  have hle := le_digitsLength_append hds rest
  rw [fractionLength, if_neg]
  intro hnone
  simp only [Bool.and_eq_true, decide_eq_true_eq] at hnone
  rcases h with hwhole | hne
  · exact hwhole hnone.1
  · have hpos := List.length_pos_iff.2 hne
    omega

namespace Exponent

variable (e : Exponent) (rest : List Char)

theorem mark_not_digit : e.mark.isDigit = false := by
  rcases e.isMark with h | h <;> rw [h] <;> rfl

theorem digitsLength_text : digitsLength (e.text ++ rest) = 0 :=
  digitsLength_cons e.mark_not_digit _

theorem fractionLength_text (whole : Nat) : fractionLength whole (e.text ++ rest) = 0 := by
  unfold fractionLength
  split
  · next cs heq =>
    have hmark : e.mark = '.' := (List.cons.inj heq).1
    rcases e.isMark with h | h <;> rw [h] at hmark <;> cases hmark
  · rfl

/-- An exponent at the front is taken, with the digits that may go on with it. -/
theorem length_le_exponentLength : e.text.length ≤ exponentLength (e.text ++ rest) := by
  have hsign := signLength_append e.isSign (signLength_digits e.isDigits e.nonempty rest)
  have hdigits := le_digitsLength_append e.isDigits rest
  have hpos := List.length_pos_iff.2 e.nonempty
  rw [text, List.cons_append, List.append_assoc, exponentLength_mark e.isMark, hsign, List.drop_left,
    if_neg (by omega), List.length_cons, List.length_append]
  omega

end Exponent

/-- What is taken behind a sign that is taken whole. -/
theorem numeralLength_signed {sign cs : List Char} (hsign : signLength (sign ++ cs) = sign.length)
    {whole point : Nat} (hwhole : digitsLength cs = whole)
    (hpoint : fractionLength whole (cs.drop whole) = point) (hne : whole + point ≠ 0) :
    numeralLength (sign ++ cs) =
      sign.length + whole + point + exponentLength ((cs.drop whole).drop point) := by
  unfold numeralLength
  dsimp only
  rw [hsign, List.drop_left, hwhole]
  simp only [← List.drop_drop, List.drop_left, hpoint]
  exact if_neg hne

namespace Numeral

variable (n : Numeral) (rest : List Char)

theorem text_append : n.text ++ rest = n.sign ++ (n.whole ++ (n.pointText ++ (n.exponentText ++ rest))) := by
  simp only [text, unsigned, List.append_assoc]

theorem length_text : n.text.length =
    n.sign.length + n.whole.length + n.pointText.length + n.exponentText.length := by
  simp only [text, unsigned, List.length_append]
  omega

/-- Without a point, the digits and the exponent are taken. -/
theorem length_le_of_fraction_none (h : n.fraction = none) :
    n.text.length ≤ numeralLength (n.text ++ rest) := by
  have hsign := n.signLength_text rest
  have hpos : 0 < n.whole.length := by
    refine List.length_pos_iff.2 (n.nonempty.resolve_right ?_)
    rintro ⟨ds, hds, -⟩
    rw [h] at hds
    cases hds
  rw [n.text_append, n.pointText_of_none h, List.nil_append] at hsign ⊢
  rw [n.length_text, n.pointText_of_none h, List.length_nil]
  rcases hexponent : n.exponent with _ | e
  · have hmark : n.exponentText = [] := by rw [exponentText, hexponent]
    have hle := le_digitsLength_append n.isDigits_whole rest
    rw [hmark, List.nil_append] at hsign ⊢
    rw [numeralLength_signed hsign rfl rfl (by omega), List.length_nil]
    omega
  · have hmark : n.exponentText = e.text := by rw [exponentText, hexponent]
    have hle := e.length_le_exponentLength rest
    rw [hmark] at hsign ⊢
    rw [numeralLength_signed hsign (digitsLength_append n.isDigits_whole (e.digitsLength_text rest))
      (by rw [List.drop_left, e.fractionLength_text]) (by omega), List.drop_left, List.drop_zero]
    omega

/-- Behind a point, the digits and the exponent are taken. -/
theorem length_le_of_fraction_some {ds : List Char} (h : n.fraction = some ds) :
    n.text.length ≤ numeralLength (n.text ++ rest) := by
  have hsign := n.signLength_text rest
  have hdigits := n.isDigits_fraction ds h
  have hne : n.whole.length ≠ 0 ∨ ds ≠ [] := by
    rcases n.nonempty with hwhole | ⟨ds', hds', hne⟩
    · exact .inl fun hzero => hwhole (List.length_eq_zero_iff.1 hzero)
    · obtain rfl := Option.some.inj (h.symm.trans hds')
      exact .inr hne
  have hwhole : digitsLength (n.whole ++ '.' :: (ds ++ (n.exponentText ++ rest))) =
      n.whole.length := digitsLength_append n.isDigits_whole (digitsLength_cons rfl _)
  have hpoint := fractionLength_digits hdigits hne (n.exponentText ++ rest)
  rw [n.text_append, n.pointText_of_some h, List.cons_append] at hsign ⊢
  rw [n.length_text, n.pointText_of_some h, List.length_cons]
  rcases hexponent : n.exponent with _ | e
  · have hmark : n.exponentText = [] := by rw [exponentText, hexponent]
    have hle := le_digitsLength_append hdigits rest
    rw [hmark, List.nil_append] at hsign hwhole hpoint ⊢
    rw [numeralLength_signed hsign hwhole (by rw [List.drop_left, hpoint]) (by omega),
      List.length_nil]
    omega
  · have hmark : n.exponentText = e.text := by rw [exponentText, hexponent]
    have hle := e.length_le_exponentLength rest
    rw [hmark] at hsign hwhole hpoint ⊢
    rw [digitsLength_append hdigits (e.digitsLength_text rest), Nat.add_comm] at hpoint
    rw [numeralLength_signed hsign hwhole (by rw [List.drop_left, hpoint]) (by omega), List.drop_left,
      List.drop_succ_cons, List.drop_left]
    omega

/-- No numeral at the front of a text is longer than what is taken. -/
theorem length_le_numeralLength : n.text.length ≤ numeralLength (n.text ++ rest) := by
  cases h : n.fraction with
  | none => exact n.length_le_of_fraction_none rest h
  | some ds => exact n.length_le_of_fraction_some rest h

end Numeral

/-! ## The longest one -/

/-- A numeral at the front of a text, and none there is longer. -/
structure Numeral.IsLongest (n : Numeral) (cs : List Char) : Prop where
  front : n.text <+: cs
  longest : ∀ m : Numeral, m.text <+: cs → m.text.length ≤ n.text.length

/-- Where anything is taken, it is the longest numeral. -/
theorem exists_isLongest {cs : List Char} (h : numeralLength cs ≠ 0) :
    ∃ n : Numeral, n.IsLongest cs ∧ cs.take (numeralLength cs) = n.text := by
  obtain ⟨n, rest, hcs, hlength⟩ := exists_numeral h
  refine ⟨n, ⟨⟨rest, hcs.symm⟩, ?_⟩, ?_⟩
  · rintro m ⟨behind, hm⟩
    rw [← hlength, ← hm]
    exact m.length_le_numeralLength behind
  · rw [hlength, hcs, List.take_left]

/-- Nothing is taken from a text that no numeral stands in front of. -/
theorem numeralLength_eq_zero_iff {cs : List Char} :
    numeralLength cs = 0 ↔ ∀ n : Numeral, ¬n.text <+: cs := by
  constructor
  · rintro hzero n ⟨rest, hrest⟩
    have hle := n.length_le_numeralLength rest
    have hpos := List.length_pos_iff.2 n.text_ne_nil
    rw [hrest] at hle
    omega
  · intro hnone
    by_contra hne
    obtain ⟨n, hn, -⟩ := exists_isLongest hne
    exact hnone n hn.front

/-- Longest numerals at the front of one text are the same text. -/
theorem Numeral.IsLongest.text_eq {n m : Numeral} {cs : List Char} (hn : n.IsLongest cs)
    (hm : m.IsLongest cs) : n.text = m.text := by
  have hlength : n.text.length = m.text.length :=
    Nat.le_antisymm (hm.longest n hn.front) (hn.longest m hm.front)
  exact (List.prefix_of_prefix_length_le hn.front hm.front hlength.le).eq_of_length hlength

/-! ## What numerals go on with -/

/-- A text that goes on with a numeral in front of it: with a digit, with a point, or with the mark of an
exponent that has a digit behind it and its sign. -/
inductive GoesOn : List Char → Prop where
  | digit {c : Char} (h : c.isDigit = true) (cs : List Char) : GoesOn (c :: cs)
  | point (cs : List Char) : GoesOn ('.' :: cs)
  | exponent {mark c : Char} {sign : List Char} (hmark : mark = 'e' ∨ mark = 'E')
      (hsign : IsSign sign) (h : c.isDigit = true) (cs : List Char) :
      GoesOn (mark :: (sign ++ c :: cs))

theorem Exponent.goesOn (e : Exponent) (rest : List Char) : GoesOn (e.text ++ rest) := by
  obtain ⟨c, ds, hdigits⟩ := List.exists_cons_of_ne_nil e.nonempty
  have hc : c.isDigit = true := e.isDigits c (hdigits ▸ List.mem_cons_self)
  rw [text, List.cons_append, List.append_assoc, hdigits]
  exact .exponent e.isMark e.isSign hc (ds ++ rest)

/-- The scanner of numerals stops in front of exactly the texts that do not go on with one. -/
theorem isBehind_iff {cs : List Char} : IsBehind cs ↔ ¬GoesOn cs := by
  constructor
  · rintro ⟨hdigits, hpoint, hexponent⟩ hcs
    cases hcs with
    | @digit c h cs =>
      have hdigit : IsDigits [c] := List.forall_mem_singleton.2 h
      have hle := le_digitsLength_append hdigit cs
      rw [List.singleton_append, hdigits] at hle
      cases hle
    | point cs => exact hpoint cs rfl
    | @exponent mark c sign hmark hsign h cs =>
      have hdigit : IsDigits [c] := List.forall_mem_singleton.2 h
      have hle := Exponent.length_le_exponentLength
        ⟨mark, sign, [c], hmark, hsign, hdigit, List.cons_ne_nil c []⟩ cs
      rw [Exponent.text, List.cons_append, List.append_assoc, List.singleton_append, hexponent] at hle
      cases hle
  · intro h
    refine ⟨?_, ?_, ?_⟩
    · cases cs with
      | nil => rfl
      | cons c cs => exact digitsLength_cons (Bool.eq_false_iff.2 fun hc => h (.digit hc cs)) cs
    · rintro cs' rfl
      exact h (.point cs')
    · by_contra hne
      obtain ⟨e, rest, rfl, -⟩ := exists_exponent hne
      exact h (e.goesOn rest)

end Restyle.Number
