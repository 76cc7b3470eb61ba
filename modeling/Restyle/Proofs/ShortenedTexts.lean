import Restyle.Proofs.Inert
import Restyle.Proofs.LineEnds

/-!
# Tokens of a text that is read alone

What stands behind a token has a say in how far the token goes.  A token that ends in a text with more
behind it is the token of the text alone too, if it does not hang on what is left out
(`Token.scan_of_append`).  A string that a line end cuts off is a string like any other once the line end
is gone, and a backslash that is no escape in front of a line end is one (`Token.HangsOnLineEnd`).  A
function with the name of an address is one because a quotation mark follows, and without that it begins
an address (`Token.HangsOnQuote`).  Nor must the text behind start with a backslash.

For each scanner there is one lemma: what it takes of a longer text, if that lies in the shorter one, it
takes of the shorter one.  Rows of tokens follow token by token (`Token.row_of_append`).
-/

namespace Restyle.Css.Token

section

variable {front cs s : List Char}

/-! ## What a scanner has taken -/

theorem takeWhile_of_append {p : Char → Bool} (h : ((cs ++ s).takeWhile p).length ≤ cs.length) :
    cs.takeWhile p = (cs ++ s).takeWhile p := by
  induction cs with
  | nil => exact (List.length_eq_zero_iff.1 (Nat.le_zero.1 h)).symm
  | cons c cs ih =>
    rw [List.cons_append, List.takeWhile_cons] at h ⊢
    rw [List.takeWhile_cons]
    split
    · next hc =>
      rw [if_pos hc, List.length_cons, List.length_cons] at h
      rw [ih (Nat.le_of_succ_le_succ h)]
    · rfl

theorem spaceLength_of_append (h : spaceLength (cs ++ s) ≤ cs.length) :
    spaceLength cs = spaceLength (cs ++ s) :=
  congrArg List.length (takeWhile_of_append h)

theorem digitsLength_of_append (h : Number.digitsLength (cs ++ s) ≤ cs.length) :
    Number.digitsLength cs = Number.digitsLength (cs ++ s) :=
  congrArg List.length (takeWhile_of_append h)

theorem startsNewline_append (hcs : cs ≠ []) (s : List Char) :
    startsNewline (cs ++ s) = startsNewline cs := by
  cases cs with
  | nil => exact absurd rfl hcs
  | cons c cs => rfl

theorem newlineLength_of_append (h : newlineLength (cs ++ s) ≤ cs.length) :
    newlineLength cs = newlineLength (cs ++ s) := by
  cases cs with
  | nil => exact (Nat.le_zero.1 h).symm
  | cons c cs =>
    rw [List.cons_append, newlineLength_cons, List.length_cons] at h
    rw [List.cons_append, newlineLength_cons, newlineLength_cons]
    cases cs with
    | nil =>
      have hno : ¬(c = '\r' ∧ ([] ++ s).head? = some '\n') := by
        intro hcr
        rw [if_pos hcr] at h
        exact absurd h (by decide)
      rw [if_neg hno, if_neg fun hcr => Option.some_ne_none _ hcr.2.symm]
    | cons d cs => rfl

theorem hexDigits_of_append (h : (hexDigits (cs ++ s)).length ≤ cs.length) :
    hexDigits cs = hexDigits (cs ++ s) := by
  unfold hexDigits at h ⊢
  have hsix := length_takeWhile_le isHexDigit ((cs ++ s).take 6)
  rw [List.length_take] at hsix
  rw [List.take_append] at h hsix ⊢
  refine takeWhile_of_append ?_
  rw [List.length_take]
  omega

theorem gapLength_of_append (h : gapLength (cs ++ s) ≤ cs.length) :
    gapLength cs = gapLength (cs ++ s) := by
  cases cs with
  | nil => exact (Nat.le_zero.1 h).symm
  | cons c cs =>
    rw [List.cons_append, gapLength] at h ⊢
    rw [gapLength]
    split
    · next hc =>
      rw [if_pos hc, ← List.cons_append] at h
      rw [newlineLength_of_append h, List.cons_append]
    · rfl

theorem escapeLength_of_append (h : escapeLength (cs ++ s) ≤ cs.length) :
    escapeLength cs = escapeLength (cs ++ s) := by
  unfold escapeLength at h ⊢
  dsimp only at h ⊢
  have hfits : (hexDigits (cs ++ s)).length ≤ cs.length := by
    split at h <;> omega
  rw [hexDigits_of_append hfits]
  split
  · next hnone =>
    rw [if_pos hnone, List.length_append] at h
    rw [List.length_append]
    omega
  · next hsome =>
    rw [if_neg hsome, List.drop_append_of_le_length hfits] at h
    rw [List.drop_append_of_le_length hfits, gapLength_of_append]
    rw [List.length_drop]
    omega

theorem escapeLength_pos (hs : s ≠ []) : 0 < escapeLength s := by
  have := List.length_pos_iff.2 hs
  unfold escapeLength
  dsimp only
  split <;> omega

theorem newlineLength_pos (h : startsNewline s = true) : 0 < newlineLength s := by
  cases s with
  | nil => cases h
  | cons c s =>
    rw [newlineLength_cons]
    split
    · exact Nat.two_pos
    · rw [if_pos (show isNewline c = true from h)]
      exact Nat.one_pos

/-- A name that ends in a text is the name of the text alone, unless a backslash is left behind it. -/
theorem nameLength_of_append (h : nameLength (cs ++ s) ≤ cs.length)
    (hleft : startsNewline s = true → cs.drop (nameLength (cs ++ s)) ≠ ['\\']) :
    nameLength cs = nameLength (cs ++ s) := by
  fun_induction nameLength cs with
  | case1 => exact (Nat.le_zero.1 h).symm
  | case2 c cs hc hnewline =>
    have hcs : cs ≠ [] := by
      rintro rfl
      cases hnewline
    rw [List.cons_append, nameLength, if_pos hc, startsNewline_append hcs, if_pos hnewline]
  | case3 c cs hc hnewline ih =>
    rw [List.cons_append, nameLength, if_pos hc] at h hleft ⊢
    rw [List.length_cons] at h
    by_cases hcs : cs = []
    · subst hcs
      rw [List.nil_append] at h hleft ⊢
      have hkeeps : ¬startsNewline s = true := by
        intro hs
        rw [if_pos hs] at hleft
        exact hleft hs (by rw [beq_iff_eq.1 hc]; rfl)
      rw [if_neg hkeeps, List.length_nil] at h
      rw [if_neg hkeeps, show escapeLength [] = 0 from rfl, List.drop_nil, nameLength]
      omega
    · have hkeeps : ¬startsNewline (cs ++ s) = true := by rwa [startsNewline_append hcs]
      rw [if_neg hkeeps] at h hleft ⊢
      have hescape : escapeLength (cs ++ s) ≤ cs.length := by omega
      rw [← escapeLength_of_append hescape,
        List.drop_append_of_le_length (escapeLength_le cs)] at h hleft ⊢
      rw [ih]
      · rw [List.length_drop]
        omega
      · intro hs
        have hrest := hleft hs
        rwa [Nat.add_assoc, Nat.add_comm 1, List.drop_succ_cons, ← List.drop_drop] at hrest
  | case4 c cs hc hname ih =>
    rw [List.cons_append, nameLength, if_neg hc, if_pos hname] at h hleft ⊢
    rw [List.length_cons] at h
    rw [ih (by omega)]
    intro hs
    have := hleft hs
    rwa [Nat.add_comm, List.drop_succ_cons] at this
  | case5 c cs hc hname => rw [List.cons_append, nameLength, if_neg hc, if_neg hname]

/-! ## Numbers -/

theorem signLength_append (hcs : cs ≠ []) (s : List Char) :
    Number.signLength (cs ++ s) = Number.signLength cs := by
  cases cs with
  | nil => exact absurd rfl hcs
  | cons c cs => rw [List.cons_append, signLength_cons, signLength_cons]

theorem fractionLength_of_append (h : fractionLength (cs ++ s) ≤ cs.length) :
    fractionLength cs = fractionLength (cs ++ s) := by
  cases cs with
  | nil => exact (Nat.le_zero.1 h).symm
  | cons c cs =>
    rw [List.cons_append, fractionLength_cons, List.length_cons] at h
    rw [List.cons_append, fractionLength_cons, fractionLength_cons]
    by_cases hc : c = '.'
    · have hfits : Number.digitsLength (cs ++ s) ≤ cs.length := by
        split at h <;> simp_all
      rw [digitsLength_of_append hfits]
    · rw [if_neg fun hp => hc hp.1, if_neg fun hp => hc hp.1]

theorem exponentLength_of_append (h : Number.exponentLength (cs ++ s) ≤ cs.length) :
    Number.exponentLength cs = Number.exponentLength (cs ++ s) := by
  cases cs with
  | nil => exact (Nat.le_zero.1 h).symm
  | cons c cs =>
    rw [List.cons_append, exponentLength_cons, List.length_cons] at h
    rw [List.cons_append, exponentLength_cons, exponentLength_cons]
    by_cases hc : c = 'e' ∨ c = 'E'
    · by_cases hcs : cs = []
      · subst hcs
        -- an exponent is longer than its first character
        have hno : ¬((c = 'e' ∨ c = 'E') ∧
            Number.digitsLength (([] ++ s).drop (Number.signLength ([] ++ s))) ≠ 0) := by
          intro hp
          rw [if_pos hp, List.length_nil] at h
          have := hp.2
          omega
        rw [if_neg hno, if_neg fun hp => hp.2 rfl]
      · have hsign := signLength_le cs
        rw [signLength_append hcs, List.drop_append_of_le_length hsign] at h ⊢
        have hfits : Number.digitsLength (cs.drop (Number.signLength cs) ++ s) ≤
            (cs.drop (Number.signLength cs)).length := by
          rw [List.length_drop]
          split at h
          · omega
          · next hno =>
            rw [not_not.1 fun hp => hno ⟨hc, hp⟩]
            exact Nat.zero_le _
        rw [digitsLength_of_append hfits]
    · rw [if_neg fun hp => hc hp.1, if_neg fun hp => hc hp.1]

/-- A number is read in a text alone as it is read with more behind it, if that is no part of it. -/
theorem numberLength_of_append (hcs : cs ≠ []) (h : numberLength (cs ++ s) ≤ cs.length) :
    numberLength cs = numberLength (cs ++ s) := by
  have hsign := signLength_le cs
  unfold numberLength at h ⊢
  dsimp only at h ⊢
  rw [signLength_append hcs, List.drop_append_of_le_length hsign] at h ⊢
  have hdigits : Number.digitsLength (cs.drop (Number.signLength cs) ++ s) ≤
      (cs.drop (Number.signLength cs)).length := by
    rw [List.length_drop]
    split at h <;> omega
  rw [← digitsLength_of_append hdigits] at h ⊢
  have hwhole := (brokenLength_le cs).1
  rw [List.drop_append_of_le_length hwhole] at h ⊢
  generalize Number.signLength cs + Number.digitsLength (cs.drop (Number.signLength cs)) = whole
    at h hwhole ⊢
  have hfraction : fractionLength (cs.drop whole ++ s) ≤ (cs.drop whole).length := by
    rw [List.length_drop]
    split at h <;> omega
  rw [← fractionLength_of_append hfraction] at h ⊢
  have hbroken : whole + fractionLength (cs.drop whole) ≤ cs.length := by
    have := fractionLength_le (cs.drop whole)
    rw [List.length_drop] at this
    omega
  rw [List.drop_append_of_le_length hbroken] at h ⊢
  split
  · rfl
  · next hsome =>
    rw [if_neg hsome] at h
    rw [exponentLength_of_append]
    rw [List.length_drop]
    omega

/-! ## Strings, comments and addresses -/

theorem stringEscape_of_append (hs : s ≠ [])
    (h : (if startsNewline (cs ++ s) then newlineLength (cs ++ s) else escapeLength (cs ++ s)) ≤
      cs.length) :
    (if startsNewline cs then newlineLength cs else escapeLength cs) =
      if startsNewline (cs ++ s) then newlineLength (cs ++ s) else escapeLength (cs ++ s) := by
  by_cases hcs : cs = []
  · subst hcs
    rw [List.nil_append, List.length_nil] at h
    split at h
    · next hnewline =>
      have := newlineLength_pos hnewline
      omega
    · have := escapeLength_pos hs
      omega
  · rw [startsNewline_append hcs] at h ⊢
    split
    · next hnewline =>
      rw [if_pos hnewline] at h
      exact newlineLength_of_append h
    · next hnewline =>
      rw [if_neg hnewline] at h
      exact escapeLength_of_append h

/-- A string that ends in a text is the string of the text alone, unless a line end behind the text cuts
it off. -/
theorem scanString_of_append {quote : Char} (hs : s ≠ [])
    (h : (scanString quote (cs ++ s)).2 ≤ cs.length)
    (hleft : startsNewline s = true → cs.drop (scanString quote (cs ++ s)).2 = [] →
      (scanString quote (cs ++ s)).1 ≠ .badString) :
    scanString quote cs = scanString quote (cs ++ s) := by
  fun_induction scanString quote cs with
  | case1 =>
    obtain ⟨x, s, rfl⟩ := List.exists_cons_of_ne_nil hs
    rw [List.nil_append, scanString] at h hleft
    dsimp only at h hleft
    split at h
    · exact absurd h (by decide)
    · next hquote =>
      rw [if_neg hquote] at hleft
      split at h
      · next hnewline =>
        rw [if_pos hnewline] at hleft
        exact absurd rfl (hleft hnewline rfl)
      · split at h <;> exact absurd h (by simp)
  | case2 c cs hc => rw [List.cons_append, scanString, if_pos hc]
  | case3 c cs hc hnewline => rw [List.cons_append, scanString, if_neg hc, if_pos hnewline]
  | case4 c cs hc hnewline hescape n kind m hrest ih =>
    rw [List.cons_append, scanString, if_neg hc, if_neg hnewline, if_pos hescape] at h hleft ⊢
    dsimp only at h hleft ⊢
    rw [List.length_cons] at h
    have hfits : (if startsNewline (cs ++ s) then newlineLength (cs ++ s)
        else escapeLength (cs ++ s)) ≤ cs.length := by omega
    have hn : (if startsNewline cs then newlineLength cs else escapeLength cs) = n := rfl
    have hle := stringEscape_le cs
    rw [← stringEscape_of_append hs hfits, hn] at h hleft ⊢
    rw [hn] at hle
    rw [List.drop_append_of_le_length hle] at h hleft ⊢
    rw [hrest] at ih
    rw [← ih]
    · rw [List.length_drop]
      omega
    · intro hnewline hall
      refine hleft hnewline ?_
      rwa [Nat.add_assoc, Nat.add_comm 1, List.drop_succ_cons, ← List.drop_drop]
  | case5 c cs hc hnewline hescape kind m hrest ih =>
    rw [List.cons_append, scanString, if_neg hc, if_neg hnewline, if_neg hescape] at h hleft ⊢
    dsimp only at h hleft ⊢
    rw [List.length_cons] at h
    rw [hrest] at ih
    rw [← ih (by omega)]
    intro hnewline hall
    refine hleft hnewline ?_
    rwa [Nat.add_comm, List.drop_succ_cons]

theorem commentLength_of_append (h : commentLength (cs ++ s) ≤ cs.length) :
    commentLength cs = commentLength (cs ++ s) := by
  fun_induction commentLength cs with
  | case1 => exact (Nat.le_zero.1 h).symm
  | case2 cs => simp [commentLength]
  | case3 c cs hopen ih =>
    have hopen' : ∀ tail, c = '*' → cs ++ s = '/' :: tail → False := by
      intro tail hc heq
      cases cs with
      | nil =>
        -- the mark is longer than its first character
        rw [List.cons_append, hc, heq, commentLength] at h
        exact absurd h (by decide)
      | cons d cs => exact hopen cs hc (by rw [(List.cons.inj heq).1])
    rw [List.cons_append, commentLength.eq_3 _ _ hopen', List.length_cons] at h
    rw [List.cons_append, commentLength.eq_3 _ _ hopen', ih (by omega)]

theorem badUrlLength_of_append (h : badUrlLength (cs ++ s) ≤ cs.length) :
    badUrlLength cs = badUrlLength (cs ++ s) := by
  fun_induction badUrlLength cs with
  | case1 => exact (Nat.le_zero.1 h).symm
  | case2 cs => rw [List.cons_append, badUrlLength]
  | case3 cs ih =>
    rw [List.cons_append, List.cons_append, badUrlLength, List.length_cons, List.length_cons] at h
    rw [List.cons_append, List.cons_append, badUrlLength, ih (by omega)]
  | case4 cs ih =>
    rw [List.cons_append, List.cons_append, badUrlLength, List.length_cons, List.length_cons] at h
    rw [List.cons_append, List.cons_append, badUrlLength, ih (by omega)]
  | case5 c cs hclose hescape hdouble ih =>
    have passes : ∀ {y : Char}, y = ')' ∨ y = '\\' → (∀ tail, c = '\\' → cs = y :: tail → False) →
        ∀ tail, c = '\\' → cs ++ s = y :: tail → False := by
      intro y hy hno tail hc heq
      cases cs with
      | nil =>
        rw [List.cons_append, hc, heq] at h
        rcases hy with rfl | rfl
        · rw [badUrlLength, List.length_singleton] at h
          omega
        · rw [badUrlLength, List.length_singleton] at h
          omega
      | cons d cs => exact hno cs hc (by rw [(List.cons.inj heq).1])
    have step := badUrlLength.eq_5 c (cs ++ s) hclose (passes (.inl rfl) hescape)
      (passes (.inr rfl) hdouble)
    rw [List.cons_append, step, List.length_cons] at h
    rw [List.cons_append, step, ih (by omega)]

theorem scanUrlEnd_of_append (hs : s ≠ []) (h : (scanUrlEnd (cs ++ s)).2 ≤ cs.length) :
    scanUrlEnd cs = scanUrlEnd (cs ++ s) := by
  have hlength := List.length_pos_iff.2 hs
  unfold scanUrlEnd at h ⊢
  dsimp only at h ⊢
  have hspace : spaceLength (cs ++ s) ≤ cs.length := by
    split at h
    · exact h
    · split at h <;> dsimp only at h <;> omega
  rw [← spaceLength_of_append hspace] at h ⊢
  have hle : spaceLength cs ≤ cs.length := length_takeWhile_le _ cs
  rw [List.drop_append_of_le_length hle] at h ⊢
  have hsum : (cs.drop (spaceLength cs)).length = cs.length - spaceLength cs := List.length_drop
  cases hrest : cs.drop (spaceLength cs) with
  | nil =>
    obtain ⟨x, s, rfl⟩ := List.exists_cons_of_ne_nil hs
    rw [hrest, List.length_nil] at hsum
    rw [hrest] at h
    dsimp only [List.nil_append] at h
    split at h <;> dsimp only at h <;> omega
  | cons c rest =>
    rw [hrest, List.length_cons] at hsum
    rw [hrest] at h
    dsimp only [List.cons_append] at h ⊢
    split
    · rfl
    · next hc =>
      rw [if_neg hc] at h
      dsimp only at h
      rw [badUrlLength_of_append]
      omega

theorem scanUrl_pos (hs : s ≠ []) : 0 < (scanUrl s).2 := by
  obtain ⟨x, s, rfl⟩ := List.exists_cons_of_ne_nil hs
  rw [scanUrl]
  split
  · exact Nat.one_pos
  · split
    · next hspace =>
      have hfirst : 0 < spaceLength (x :: s) := by
        rw [spaceLength, List.takeWhile_cons, if_pos hspace]
        exact Nat.succ_pos _
      unfold scanUrlEnd
      dsimp only
      split
      · exact hfirst
      · split <;> dsimp only <;> omega
    · split
      · dsimp only
        omega
      · split
        · split <;> dsimp only <;> omega
        · dsimp only
          omega

theorem scanUrl_of_append (hs : s ≠ []) (h : (scanUrl (cs ++ s)).2 ≤ cs.length) :
    scanUrl cs = scanUrl (cs ++ s) := by
  fun_induction scanUrl cs with
  | case1 => exact absurd (scanUrl_pos hs) (Nat.not_lt.2 h)
  | case2 c cs hc => rw [List.cons_append, scanUrl, if_pos hc]
  | case3 c cs hc hspace =>
    rw [List.cons_append, scanUrl, if_neg hc, if_pos hspace] at h ⊢
    exact scanUrlEnd_of_append hs h
  | case4 c cs hc hspace hbarred =>
    rw [List.cons_append, scanUrl, if_neg hc, if_neg hspace, if_pos hbarred, List.length_cons] at h
    rw [List.cons_append, scanUrl, if_neg hc, if_neg hspace, if_pos hbarred]
    rw [badUrlLength_of_append]
    dsimp only at h
    omega
  | case5 c cs hc hspace hbarred hescape hnewline =>
    have hcs : cs ≠ [] := by
      rintro rfl
      cases hnewline
    have hnewline' : startsNewline (cs ++ s) = true := by rwa [startsNewline_append hcs]
    rw [List.cons_append, scanUrl, if_neg hc, if_neg hspace, if_neg hbarred, if_pos hescape,
      if_pos hnewline', List.length_cons] at h
    rw [List.cons_append, scanUrl, if_neg hc, if_neg hspace, if_neg hbarred, if_pos hescape,
      if_pos hnewline', badUrlLength_of_append]
    dsimp only at h
    omega
  | case6 c cs hc hspace hbarred hescape hnewline n kind m hrest ih =>
    rw [List.cons_append, scanUrl, if_neg hc, if_neg hspace, if_neg hbarred, if_pos hescape,
      List.length_cons] at h
    rw [List.cons_append, scanUrl, if_neg hc, if_neg hspace, if_neg hbarred, if_pos hescape]
    have hcs : cs ≠ [] := by
      rintro rfl
      have hpos := escapeLength_pos hs
      rw [List.nil_append, List.length_nil] at h
      split at h
      · exact hs (eq_nil_of_badUrlLength (by dsimp only at h; omega))
      · dsimp only at h
        omega
    have hkeeps : ¬startsNewline (cs ++ s) = true := by rwa [startsNewline_append hcs]
    rw [if_neg hkeeps] at h ⊢
    have hn : escapeLength cs = n := rfl
    dsimp only at h ⊢
    have hfits : escapeLength (cs ++ s) ≤ cs.length := by omega
    rw [← escapeLength_of_append hfits, List.drop_append_of_le_length (escapeLength_le cs), hn] at h ⊢
    have hle := escapeLength_le cs
    rw [hn] at hle
    rw [hrest] at ih
    rw [← ih]
    rw [List.length_drop]
    omega
  | case7 c cs hc hspace hbarred hescape kind m hrest ih =>
    rw [List.cons_append, scanUrl, if_neg hc, if_neg hspace, if_neg hbarred, if_neg hescape] at h ⊢
    dsimp only at h ⊢
    rw [List.length_cons] at h
    rw [hrest] at ih
    rw [← ih (by omega)]

/-! ## Tokens -/

theorem nameLength_pos (h : startsIdent s = true) : 0 < nameLength s := by
  cases s with
  | nil => cases h
  | cons c s =>
    rw [startsIdent_cons] at h
    rw [nameLength]
    split
    · next hc =>
      have hbackslash : c = '\\' := beq_iff_eq.1 hc
      have hminus : c ≠ '-' := by
        rintro rfl
        cases hbackslash
      rw [if_neg hminus, if_pos hbackslash, Bool.not_eq_true'] at h
      rw [h, if_neg Bool.false_ne_true]
      omega
    · next hc =>
      have hname : isNameChar c = true := by
        rw [isNameChar, Bool.or_eq_true, Bool.or_eq_true]
        split at h
        · next hminus => exact .inr (beq_iff_eq.2 hminus)
        · rw [if_neg (mt beq_iff_eq.2 hc)] at h
          exact .inl (.inl h)
      rw [if_pos hname]
      omega

/-- An identifier starts in a text alone where it starts with more behind it, if its name ends in the
text. -/
theorem startsIdent_of_append (hback : s.head? ≠ some '\\')
    (h : startsIdent (cs ++ s) = true → nameLength (cs ++ s) ≤ cs.length)
    (hleft : startsNewline s = true → cs ≠ ['\\']) :
    startsIdent cs = startsIdent (cs ++ s) := by
  rcases cs with _ | ⟨c, _ | ⟨d, cs⟩⟩
  · rw [List.nil_append] at h ⊢
    cases hstarts : startsIdent s with
    | false => rfl
    | true => exact absurd (nameLength_pos hstarts) (Nat.not_lt.2 (h hstarts))
  · rw [List.singleton_append, startsIdent_cons] at h ⊢
    rw [startsIdent_cons]
    by_cases hminus : c = '-'
    · subst hminus
      rw [if_pos rfl, if_pos rfl] at *
      cases s with
      | nil => rfl
      | cons x s =>
        have hne : x ≠ '\\' := fun heq => hback (by rw [heq]; rfl)
        cases hx : isNameStart x || x == '-' || x == '\\' with
        | false => exact hx.symm
        | true =>
          -- the name goes on with the character behind the text
          have hname : isNameChar x = true := by
            rw [Bool.or_eq_true, Bool.or_eq_true, beq_iff_eq, beq_iff_eq] at hx
            rw [isNameChar, Bool.or_eq_true, Bool.or_eq_true, beq_iff_eq]
            rcases hx with (hx | hx) | hx
            · exact .inl (.inl hx)
            · exact .inr hx
            · exact absurd hx hne
          have hlong := h hx
          rw [nameLength, if_neg (by decide), if_pos (by decide), nameLength,
            if_neg (mt beq_iff_eq.1 hne), if_pos hname, List.length_singleton] at hlong
          omega
    · rw [if_neg hminus, if_neg hminus]
      by_cases hc : c = '\\'
      · rw [if_pos hc, if_pos hc]
        have : startsNewline s = false := by
          rw [Bool.eq_false_iff]
          exact fun hs => hleft hs (by rw [hc])
        rw [this]
        rfl
      · rw [if_neg hc, if_neg hc]
  · rw [List.cons_append, startsIdent_cons, startsIdent_cons]
    rfl

theorem head?_drop_of_append {n : Nat} {y : Char} (h : ((cs ++ s).drop n).head? = some y)
    (hn : n < cs.length) : (cs.drop n).head? = some y := by
  rw [List.head?_drop] at h ⊢
  rwa [List.getElem?_append_left hn] at h

theorem scanUnit_of_append {n : Nat} (hn : n ≤ cs.length) (hback : s.head? ≠ some '\\')
    (h : (scanUnit n (cs ++ s)).2 ≤ cs.length)
    (hleft : startsNewline s = true → cs.drop (scanUnit n (cs ++ s)).2 ≠ ['\\']) :
    scanUnit n cs = scanUnit n (cs ++ s) := by
  have hlength : (cs.drop n).length = cs.length - n := List.length_drop
  rw [scanUnit_eq] at h hleft
  rw [scanUnit_eq, scanUnit_eq]
  rw [List.drop_append_of_le_length hn] at h hleft ⊢
  have hpercent : (cs.drop n ++ s).head? = some '%' ↔ (cs.drop n).head? = some '%' := by
    cases hrest : cs.drop n with
    | cons c rest => rfl
    | nil =>
      refine ⟨fun hhead => ?_, nofun⟩
      rw [hrest, List.length_nil] at hlength
      rw [hrest, if_pos hhead] at h
      dsimp only at h
      omega
  simp only [hpercent] at h hleft ⊢
  split
  · rfl
  · next hno =>
    rw [if_neg hno] at h hleft
    have hstarts : startsIdent (cs.drop n) = startsIdent (cs.drop n ++ s) := by
      refine startsIdent_of_append hback (fun hstarts => ?_) fun hs hlone => ?_
      · rw [if_pos hstarts] at h
        dsimp only at h
        omega
      · have hleft := hleft hs
        split at hleft
        · next hstarts =>
          rw [hlone] at hstarts
          rw [List.singleton_append, startsIdent, hs] at hstarts
          cases hstarts
        · exact hleft hlone
    rw [hstarts]
    split
    · next hstarts =>
      rw [if_pos hstarts] at h hleft
      dsimp only at h hleft
      rw [nameLength_of_append]
      · omega
      · intro hs
        rw [List.drop_drop]
        exact hleft hs
    · rfl

/-- Whether a quotation mark follows, with white space in front of it or without. -/
def startsQuoted (cs : List Char) : Bool :=
  ((cs.drop (spaceLength cs)).head?.map isQuote).getD false

theorem startsQuoted_spaces {spaces : List Char} (h : ∀ c ∈ spaces, isSpace c = true)
    (s : List Char) : startsQuoted (spaces ++ s) = startsQuoted s := by
  have hspace : spaceLength (spaces ++ s) = spaces.length + spaceLength s := by
    rw [spaceLength, List.takeWhile_append_of_pos h, List.length_append, spaceLength]
  unfold startsQuoted
  rw [hspace, List.drop_length_add_append]

theorem startsQuoted_of_spaces {spaces : List Char} (h : ∀ c ∈ spaces, isSpace c = true) :
    startsQuoted spaces = false := by
  have hnone := startsQuoted_spaces h []
  rwa [List.append_nil] at hnone

/-- What stands far behind has no say in whether a quotation mark follows. -/
theorem startsQuoted_append (h : ¬∀ c ∈ cs, isSpace c = true) (s : List Char) :
    startsQuoted (cs ++ s) = startsQuoted cs := by
  have hle : spaceLength cs ≤ cs.length := length_takeWhile_le _ cs
  have hsome : spaceLength cs ≠ cs.length := by
    intro hlength
    refine h fun c hc => ?_
    rw [← (List.takeWhile_prefix isSpace).eq_of_length hlength] at hc
    exact List.mem_takeWhile_imp hc
  have hspace : spaceLength (cs ++ s) = spaceLength cs := by
    unfold spaceLength at hsome ⊢
    rw [List.takeWhile_append, if_neg hsome]
  have hlt : spaceLength cs < cs.length := by omega
  unfold startsQuoted
  rw [hspace, List.drop_append_of_le_length hle, List.drop_eq_getElem_cons hlt]
  rfl

theorem scanIdent_of_drop {rest : List Char} (h : cs.drop (nameLength cs) = '(' :: rest) :
    scanIdent cs =
      if asciiLower (Name.decode (cs.take (nameLength cs))) == ['u', 'r', 'l'] &&
          !startsQuoted rest then
        ((scanUrl (rest.drop (spaceLength rest))).1,
          nameLength cs + 1 + spaceLength rest + (scanUrl (rest.drop (spaceLength rest))).2)
      else (.function, nameLength cs + 1) := by
  unfold scanIdent
  dsimp only
  rw [h]
  rfl

/-- Whether a text is the name of an address with the bracket behind it. -/
def isAddressMark (text : List Char) : Bool :=
  asciiLower (Name.decode text.dropLast) == ['u', 'r', 'l']

theorem isAddressMark_take {n : Nat} {c : Char} {rest : List Char} (h : cs.drop n = c :: rest) :
    isAddressMark (cs.take (n + 1)) = (asciiLower (Name.decode (cs.take n)) == ['u', 'r', 'l']) := by
  have hat : cs[n]? = some c := by
    rw [← List.head?_drop, h]
    rfl
  rw [isAddressMark, List.take_add_one, hat, Option.toList_some, List.dropLast_concat]

/-- Something that has been scanned, from `front` on, ends in a text with `s` behind it.  Neither a
string nor a backslash is cut off by a line end there, and what is no address because a quotation mark
follows has that in the text. -/
structure EndsIn (front cs s : List Char) (scanned : Kind × Nat) : Prop where
  length : scanned.2 ≤ cs.length
  backslash : startsNewline s = true → cs.drop scanned.2 ≠ ['\\']
  string : startsNewline s = true → cs.drop scanned.2 = [] → scanned.1 ≠ .badString
  quoted : startsQuoted s = true → (∀ c ∈ cs.drop scanned.2, isSpace c = true) →
    scanned.1 = .function → isAddressMark (front ++ cs.take scanned.2) = false

/-- A quotation mark behind a text counts only for an address that has it there. -/
theorem address_of_append {rest : List Char} {scanned : Kind × Nat}
    (hrest : cs.drop (nameLength cs) = '(' :: rest)
    (h : EndsIn [] cs s (if asciiLower (Name.decode (cs.take (nameLength cs))) == ['u', 'r', 'l'] &&
      !startsQuoted (rest ++ s) then scanned else (.function, nameLength cs + 1))) :
    (asciiLower (Name.decode (cs.take (nameLength cs))) == ['u', 'r', 'l'] &&
      !startsQuoted (rest ++ s)) =
        (asciiLower (Name.decode (cs.take (nameLength cs))) == ['u', 'r', 'l'] &&
          !startsQuoted rest) := by
  have hmark := isAddressMark_take hrest
  cases hname : asciiLower (Name.decode (cs.take (nameLength cs))) == ['u', 'r', 'l'] with
  | false => rfl
  | true =>
    rw [hname] at h hmark
    by_cases hspaces : ∀ c ∈ rest, isSpace c = true
    · rw [startsQuoted_spaces hspaces] at h ⊢
      rw [startsQuoted_of_spaces hspaces]
      cases hquote : startsQuoted s with
      | false => rfl
      | true =>
        have hfunction : EndsIn [] cs s (.function, nameLength cs + 1) := by rwa [hquote] at h
        have hbehind : cs.drop (nameLength cs + 1) = rest := by
          rw [← List.drop_drop, hrest, List.drop_one, List.tail_cons]
        have hno := hfunction.quoted hquote (by rwa [hbehind]) rfl
        exact absurd hmark (Bool.eq_false_iff.1 hno)
    · rw [startsQuoted_append hspaces]

theorem scanIdent_of_append (hs : s ≠ []) (h : EndsIn [] cs s (scanIdent (cs ++ s))) :
    scanIdent cs = scanIdent (cs ++ s) := by
  have hfits := Nat.le_trans (nameLength_le_scanIdent _) h.length
  by_cases hround : ((cs ++ s).drop (nameLength (cs ++ s))).head? = some '('
  · obtain ⟨after, hafter⟩ := List.head?_eq_some_iff.1 hround
    have hscan := scanIdent_of_drop hafter
    have hless : nameLength (cs ++ s) + 1 ≤ cs.length := by
      refine Nat.le_trans ?_ h.length
      rw [hscan]
      split <;> dsimp only <;> omega
    obtain ⟨rest, hrest⟩ : ∃ rest, cs.drop (nameLength (cs ++ s)) = '(' :: rest :=
      List.head?_eq_some_iff.1 (head?_drop_of_append hround hless)
    have hname : nameLength cs = nameLength (cs ++ s) := by
      refine nameLength_of_append hfits fun _ hlone => ?_
      rw [hrest] at hlone
      cases hlone
    rw [List.drop_append_of_le_length hfits, hrest, List.cons_append] at hafter
    obtain rfl := (List.cons.inj hafter).2
    have hlength : cs.length = nameLength cs + 1 + rest.length := by
      have hsum := congrArg List.length hrest
      rw [List.length_drop, List.length_cons] at hsum
      omega
    rw [← hname] at hrest hscan
    rw [List.take_append_of_le_length (nameLength_le cs)] at hscan
    rw [hscan] at h
    have haddress := address_of_append hrest h
    rw [haddress] at h hscan
    rw [scanIdent_of_drop hrest, hscan]
    split
    · next hurl =>
      rw [if_pos hurl] at h
      have hfits := h.length
      dsimp only at hfits
      have hspace : spaceLength (rest ++ s) ≤ rest.length := by omega
      have hle : spaceLength rest ≤ rest.length := length_takeWhile_le _ rest
      rw [← spaceLength_of_append hspace, List.drop_append_of_le_length hle] at hfits ⊢
      rw [scanUrl_of_append hs]
      rw [List.length_drop]
      omega
    · rfl
  · rw [scanIdent_of_head?_ne hround] at h ⊢
    have hname := nameLength_of_append hfits h.backslash
    rw [scanIdent_of_head?_ne, hname]
    intro hhead
    rw [hname] at hhead
    obtain ⟨rest, hrest⟩ := List.head?_eq_some_iff.1 hhead
    rw [List.drop_append_of_le_length hfits, hrest] at hround
    exact hround rfl

/-- Two scans are the same if they branch alike and their branches are the same. -/
theorem ite_of_endsIn {p p' : Prop} [Decidable p] [Decidable p'] {a a' b b' : Kind × Nat}
    (ha : p' → EndsIn front cs s a' → p ∧ a = a') (hb : ¬p' → EndsIn front cs s b' → ¬p ∧ b = b')
    (h : EndsIn front cs s (if p' then a' else b')) :
    (if p then a else b) = if p' then a' else b' := by
  by_cases hp' : p'
  · rw [if_pos hp'] at h
    obtain ⟨hp, rfl⟩ := ha hp' h
    rw [if_pos hp, if_pos hp']
  · rw [if_neg hp'] at h
    obtain ⟨hp, rfl⟩ := hb hp' h
    rw [if_neg hp, if_neg hp']

/-- Whether a name follows a number sign. -/
def startsHash (cs : List Char) : Bool :=
  startsIdent cs || (cs.head?.map fun d => d.isDigit || d == '-').getD false

theorem nameLength_pos_of_startsHash (h : startsHash s = true) : 0 < nameLength s := by
  rcases Bool.or_eq_true_iff.1 h with hstarts | hhead
  · exact nameLength_pos hstarts
  · cases s with
    | nil => cases hhead
    | cons c s =>
      have hdigit : c.isDigit = true ∨ c = '-' := by
        rcases Bool.or_eq_true_iff.1 hhead with hdigit | hminus
        · exact .inl hdigit
        · exact .inr (beq_iff_eq.1 hminus)
      have hname : isNameChar c = true := by
        rw [isNameChar, Bool.or_eq_true, Bool.or_eq_true]
        exact hdigit.elim (fun hd => .inl (.inr hd)) fun hm => .inr (beq_iff_eq.2 hm)
      have hne : ¬(c == '\\') = true := by
        rw [beq_iff_eq]
        rintro rfl
        exact hdigit.elim (by decide) (by decide)
      rw [nameLength, if_neg hne, if_pos hname]
      omega

theorem isPrefixOf_append {front : List Char} (h : front.isPrefixOf cs = true) (s : List Char) :
    front.isPrefixOf (cs ++ s) = true :=
  List.isPrefixOf_iff_prefix.2
    ((List.isPrefixOf_iff_prefix.1 h).trans (List.prefix_append cs s))

theorem isPrefixOf_of_append {front : List Char} (h : front.isPrefixOf (cs ++ s) = true)
    (hlength : front.length ≤ cs.length) : front.isPrefixOf cs = true :=
  List.isPrefixOf_iff_prefix.2 (List.prefix_of_prefix_length_le (List.isPrefixOf_iff_prefix.1 h)
    (List.prefix_append cs s) hlength)

theorem head?_append_of {y : Char} (h : (cs.head? == some y) = true) (s : List Char) :
    ((cs ++ s).head? == some y) = true := by
  obtain ⟨rest, rfl⟩ := List.head?_eq_some_iff.1 (beq_iff_eq.1 h)
  exact beq_self_eq_true (some y)

theorem head?_of_append {y : Char} (h : ((cs ++ s).head? == some y) = true)
    (hlength : 0 < cs.length) : (cs.head? == some y) = true := by
  obtain ⟨c, cs, rfl⟩ := List.exists_cons_of_length_pos hlength
  exact h

theorem le_scanUnit (n : Nat) (cs : List Char) : n ≤ (scanUnit n cs).2 := by
  rw [scanUnit_eq]
  split
  · exact Nat.le_succ n
  · split
    · exact Nat.le_add_right n _
    · exact Nat.le_refl n

theorem startsHash_of_append (hback : s.head? ≠ some '\\')
    (h : startsHash (cs ++ s) = true → nameLength (cs ++ s) ≤ cs.length)
    (hleft : startsNewline s = true → cs ≠ ['\\']) : startsHash cs = startsHash (cs ++ s) := by
  cases cs with
  | nil =>
    cases hstarts : startsHash s with
    | false => exact hstarts.symm
    | true => exact absurd (nameLength_pos_of_startsHash hstarts) (Nat.not_lt.2 (h hstarts))
  | cons c cs =>
    have hident := startsIdent_of_append hback
      (fun hstarts => h (Bool.or_eq_true_iff.2 (.inl hstarts))) hleft
    rw [startsHash, hident]
    rfl

/-- A name behind a mark that starts a token with it, such as `@`. -/
theorem name_of_append {starts : List Char → Bool} {kind : Kind}
    (hstarts : (starts (cs ++ s) = true → nameLength (cs ++ s) ≤ cs.length) →
      (startsNewline s = true → cs ≠ ['\\']) → starts cs = starts (cs ++ s))
    (h : EndsIn front cs s
      (if starts (cs ++ s) then (kind, nameLength (cs ++ s)) else (.delimiter, 0))) :
    (if starts cs then (kind, nameLength cs) else (.delimiter, 0)) =
      if starts (cs ++ s) then (kind, nameLength (cs ++ s)) else (.delimiter, 0) := by
  cases hnamed : starts (cs ++ s) with
  | false =>
    rw [hnamed] at h hstarts
    rw [hstarts nofun h.backslash]
    rfl
  | true =>
    rw [hnamed, if_pos rfl] at h
    have hlone : startsNewline s = true → cs ≠ ['\\'] := by
      rintro hs rfl
      have hzero : nameLength (['\\'] ++ s) = 0 := by
        rw [List.singleton_append, nameLength, if_pos (beq_self_eq_true '\\'), if_pos hs]
      have hrest := h.backslash hs
      rw [hzero] at hrest
      exact hrest rfl
    rw [hstarts (fun _ => h.length) hlone, hnamed, nameLength_of_append h.length h.backslash]

/-- A token that ends in a text is the token of the text alone. -/
theorem scan_of_append {c : Char} (hback : s.head? ≠ some '\\')
    (h : EndsIn [c] cs s (scan c (cs ++ s)))
    (hlone : startsNewline s = true → c :: cs ≠ ['\\']) :
    scan c cs = scan c (cs ++ s) := by
  by_cases hnil : s = []
  · rw [hnil, List.append_nil]
  -- the first character has been counted with the numbers and names that start with it
  have first : ∀ {scanned : Kind × Nat}, 0 < scanned.2 →
      EndsIn [c] cs s (scanned.1, scanned.2 - 1) → EndsIn [] (c :: cs) s scanned := by
    intro scanned hpos h
    have hdrop : (c :: cs).drop scanned.2 = cs.drop (scanned.2 - 1) := by
      rw [← Nat.sub_add_cancel hpos, List.drop_succ_cons]
      rfl
    have htake : (c :: cs).take scanned.2 = [c] ++ cs.take (scanned.2 - 1) := by
      rw [← Nat.sub_add_cancel hpos, List.take_succ_cons]
      rfl
    refine ⟨Nat.le_succ_of_pred_le h.length, ?_, ?_, ?_⟩
    · rw [hdrop]
      exact h.backslash
    · rw [hdrop]
      exact h.string
    · rw [hdrop, htake]
      exact h.quoted
  -- what follows a mark in the text follows it with more behind the text too
  have behind : ∀ {mark found found' : Bool}, (found = true → found' = true) →
      ¬(mark && found') = true → ¬(mark && found) = true := by
    intro mark found found' hmono hno hfound
    obtain ⟨hmark, hfound⟩ := Bool.and_eq_true_iff.1 hfound
    exact hno (Bool.and_eq_true_iff.2 ⟨hmark, hmono hfound⟩)
  unfold scan at h ⊢
  dsimp only at h ⊢
  refine ite_of_endsIn (fun hc h => ⟨hc, ?_⟩) (fun hc h => ⟨hc, ?_⟩) h
  · rw [spaceLength_of_append h.length]
  refine ite_of_endsIn (fun hc h => ⟨hc, ?_⟩) (fun hc h => ⟨hc, ?_⟩) h
  · exact scanString_of_append hnil h.length h.string
  refine ite_of_endsIn (fun hc h => ⟨hc, ?_⟩) (fun hc h => ⟨hc, ?_⟩) h
  · exact name_of_append (startsHash_of_append hback) h
  refine ite_of_endsIn (fun hc h => ⟨hc, ?_⟩) (fun hc h => ⟨hc, ?_⟩) h
  · exact name_of_append (startsIdent_of_append hback) h
  refine ite_of_endsIn (fun hcomment h => ?_) (fun hno h => ⟨?_, ?_⟩) h
  · have hlength : 1 ≤ cs.length := Nat.le_trans (Nat.le_add_right 1 _) h.length
    obtain ⟨hslash, hstar⟩ := Bool.and_eq_true_iff.1 hcomment
    have hfits := h.length
    dsimp only at hfits
    rw [List.drop_append_of_le_length hlength] at hfits ⊢
    refine ⟨Bool.and_eq_true_iff.2 ⟨hslash, head?_of_append hstar hlength⟩, ?_⟩
    rw [commentLength_of_append]
    rw [List.length_drop]
    omega
  · exact behind (fun hstar => head?_append_of hstar s) hno
  have hnumber : numberLength (c :: cs) = numberLength (c :: (cs ++ s)) := by
    refine numberLength_of_append (List.cons_ne_nil c cs) ?_
    rw [List.cons_append]
    by_cases hzero : numberLength (c :: (cs ++ s)) = 0
    · rw [hzero]
      exact Nat.zero_le _
    · rw [if_pos (bne_iff_ne.2 hzero)] at h
      have hle := le_scanUnit (numberLength (c :: (cs ++ s))) (c :: (cs ++ s))
      exact Nat.le_trans hle (Nat.le_succ_of_pred_le h.length)
  rw [hnumber]
  refine ite_of_endsIn (fun hsome h => ⟨hsome, ?_⟩) (fun hnone h => ⟨hnone, ?_⟩) h
  · have hle := le_scanUnit (numberLength (c :: (cs ++ s))) (c :: (cs ++ s))
    have hunit := first (Nat.lt_of_lt_of_le (Nat.pos_of_ne_zero (bne_iff_ne.1 hsome)) hle) h
    rw [scanUnit_of_append (Nat.le_trans hle hunit.length) hback hunit.length
      hunit.backslash]
    rfl
  refine ite_of_endsIn (fun hmark h => ⟨?_, rfl⟩) (fun hno h => ⟨?_, ?_⟩) h
  · obtain ⟨hminus, hfront⟩ := Bool.and_eq_true_iff.1 hmark
    exact Bool.and_eq_true_iff.2 ⟨hminus, isPrefixOf_of_append hfront h.length⟩
  · exact behind (fun hfront => isPrefixOf_append hfront s) hno
  refine ite_of_endsIn (fun hmark h => ⟨?_, rfl⟩) (fun hno h => ⟨?_, ?_⟩) h
  · obtain ⟨hless, hfront⟩ := Bool.and_eq_true_iff.1 hmark
    exact Bool.and_eq_true_iff.2 ⟨hless, isPrefixOf_of_append hfront h.length⟩
  · exact behind (fun hfront => isPrefixOf_append hfront s) hno
  have hstarts : startsIdent (c :: cs) = startsIdent (c :: (cs ++ s)) := by
    refine startsIdent_of_append hback (fun hident => ?_) hlone
    rw [List.cons_append] at hident ⊢
    rw [if_pos hident] at h
    exact Nat.le_trans (nameLength_le_scanIdent _) (Nat.le_succ_of_pred_le h.length)
  rw [hstarts]
  refine ite_of_endsIn (fun hident h => ⟨hident, ?_⟩) (fun hno h => ⟨hno, ?_⟩) h
  · have hle := nameLength_le_scanIdent (c :: (cs ++ s))
    have hname := first (Nat.lt_of_lt_of_le (nameLength_pos hident) hle) h
    rw [scanIdent_of_append hnil hname]
    rfl
  refine ite_of_endsIn (fun hmark h => ⟨?_, rfl⟩) (fun hno h => ⟨?_, rfl⟩) h
  · obtain ⟨hcompare, hequals⟩ := Bool.and_eq_true_iff.1 hmark
    exact Bool.and_eq_true_iff.2 ⟨hcompare, head?_of_append hequals h.length⟩
  · exact behind (fun hequals => head?_append_of hequals s) hno

end

/-! ## Tokens that hang on a line end -/

/-- A token that is what it is because a line end follows: a string that is cut off, or a backslash that
is no escape. -/
def HangsOnLineEnd (t : Token) : Prop :=
  t.kind = .badString ∨ t.kind = .delimiter ∧ t.text = ['\\']

/-- A token that is what it is because a quotation mark follows: without that it would begin an
address. -/
def HangsOnQuote (t : Token) : Prop :=
  t.kind = .function ∧ isAddressMark t.text = true

/-- What the kinds of white space, of cut-off strings and of functions say about the text they are scanned
from. -/
structure Origin (c : Char) (cs : List Char) (scanned : Kind × Nat) : Prop where
  space : scanned.1 = .whiteSpace → isSpace c = true ∧ scanned.2 = spaceLength cs
  string : scanned.1 = .badString → startsNewline (cs.drop scanned.2) = true
  quoted : scanned.1 = .function → isAddressMark (c :: cs.take scanned.2) = true →
    startsQuoted (cs.drop scanned.2) = true

theorem startsNewline_drop_scanString {quote : Char} {cs : List Char}
    (h : (scanString quote cs).1 = .badString) :
    startsNewline (cs.drop (scanString quote cs).2) = true := by
  fun_induction scanString quote cs with
  | case1 => cases h
  | case2 => cases h
  | case3 c cs hc hnewline => exact hnewline
  | case4 c cs hc hnewline hescape n kind m hrest ih =>
    rw [hrest] at ih
    rw [Nat.add_assoc, Nat.add_comm 1, List.drop_succ_cons, ← List.drop_drop]
    exact ih h
  | case5 c cs hc hnewline hescape kind m hrest ih =>
    rw [hrest] at ih
    rw [Nat.add_comm, List.drop_succ_cons]
    exact ih h

theorem isUrl_scanUrlEnd (cs : List Char) :
    (scanUrlEnd cs).1 = .url ∨ (scanUrlEnd cs).1 = .badUrl := by
  unfold scanUrlEnd
  dsimp only
  split
  · exact .inl rfl
  · split
    · exact .inl rfl
    · exact .inr rfl

/-- An address is one or a bad one. -/
theorem isUrl_scanUrl (cs : List Char) : (scanUrl cs).1 = .url ∨ (scanUrl cs).1 = .badUrl := by
  fun_induction scanUrl cs with
  | case1 | case2 => exact .inl rfl
  | case3 c cs hc hspace => exact isUrl_scanUrlEnd (c :: cs)
  | case4 | case5 => exact .inr rfl
  | case6 c cs hc hspace hbarred hescape hnewline n kind m hrest ih => rwa [hrest] at ih
  | case7 c cs hc hspace hbarred hescape kind m hrest ih => rwa [hrest] at ih

theorem scanIdent_ne_badString (cs : List Char) : (scanIdent cs).1 ≠ .badString := by
  unfold scanIdent
  dsimp only
  split
  · split
    · rcases isUrl_scanUrl _ with h | h <;> rw [h] <;> nofun
    · nofun
  · nofun

/-- A function that has the name of an address has a quotation mark behind it. -/
theorem startsQuoted_of_scanIdent {cs : List Char} (h : (scanIdent cs).1 = .function)
    (hmark : isAddressMark (cs.take (scanIdent cs).2) = true) :
    startsQuoted (cs.drop (scanIdent cs).2) = true := by
  by_cases hround : (cs.drop (nameLength cs)).head? = some '('
  · obtain ⟨rest, hrest⟩ := List.head?_eq_some_iff.1 hround
    rw [scanIdent_of_drop hrest] at h hmark ⊢
    split at h
    · rcases isUrl_scanUrl (rest.drop (spaceLength rest)) with hurl | hurl <;>
        exact Kind.noConfusion (hurl.symm.trans h)
    · next hno =>
      rw [if_neg hno] at hmark ⊢
      dsimp only at hmark ⊢
      rw [isAddressMark_take hrest] at hmark
      rw [hmark, Bool.true_and, Bool.not_eq_true, Bool.not_eq_false'] at hno
      rwa [← List.drop_drop, hrest, List.drop_one, List.tail_cons]
  · rw [scanIdent_of_head?_ne hround] at h
    cases h

theorem scanUnit_kind (n : Nat) (cs : List Char) :
    (scanUnit n cs).1 ≠ .badString ∧ (scanUnit n cs).1 ≠ .function := by
  rw [scanUnit_eq]
  split
  · exact ⟨nofun, nofun⟩
  · split <;> exact ⟨nofun, nofun⟩

theorem scanString_ne_function (quote : Char) (cs : List Char) :
    (scanString quote cs).1 ≠ .function := by
  fun_induction scanString quote cs with
  | case4 c cs hc hnewline hescape n kind m hrest ih => rwa [hrest] at ih
  | case5 c cs hc hnewline hescape kind m hrest ih => rwa [hrest] at ih
  | _ => exact Kind.noConfusion

theorem origin_scan (c : Char) (cs : List Char) : Origin c cs (scan c cs) := by
  have other : ∀ {kind : Kind} {n : Nat}, kind ≠ .whiteSpace → kind ≠ .badString →
      kind ≠ .function → Origin c cs (kind, n) := fun hspace hstring hfunction =>
    ⟨fun h => absurd h hspace, fun h => absurd h hstring, fun h => absurd h hfunction⟩
  have not_space : ∀ {kind : Kind}, kind.isWord = true → kind ≠ .whiteSpace := by
    rintro _ hword rfl
    cases hword
  have single : Origin c cs (singleKind c, 0) := by
    unfold singleKind
    split <;> exact other nofun nofun nofun
  unfold scan
  dsimp only
  refine iteInduction (fun hspace => ⟨fun _ => ⟨hspace, rfl⟩, nofun, nofun⟩) fun _ => ?_
  refine iteInduction (fun _ => ?_) fun _ => ?_
  · exact ⟨fun h => absurd h (not_space (isWord_scanString c cs)), startsNewline_drop_scanString,
      fun h => absurd h (scanString_ne_function c cs)⟩
  refine iteInduction (fun _ => ?_) fun _ => ?_
  · exact iteInduction (fun _ => other nofun nofun nofun) fun _ => other nofun nofun nofun
  refine iteInduction (fun _ => ?_) fun _ => ?_
  · exact iteInduction (fun _ => other nofun nofun nofun) fun _ => other nofun nofun nofun
  refine iteInduction (fun _ => other nofun nofun nofun) fun _ => ?_
  refine iteInduction (fun _ => ?_) fun _ => ?_
  · exact other (not_space (isWord_scanUnit _ _)) (scanUnit_kind _ _).1 (scanUnit_kind _ _).2
  refine iteInduction (fun _ => other nofun nofun nofun) fun _ => ?_
  refine iteInduction (fun _ => other nofun nofun nofun) fun _ => ?_
  refine iteInduction (fun hident => ?_) fun _ => ?_
  · refine ⟨fun h => absurd h (not_space (isWord_scanIdent _)),
      fun h => absurd h (scanIdent_ne_badString _), fun h hmark => ?_⟩
    dsimp only at h hmark ⊢
    have hpos : 0 < (scanIdent (c :: cs)).2 :=
      Nat.lt_of_lt_of_le (nameLength_pos hident) (nameLength_le_scanIdent _)
    have hquoted := startsQuoted_of_scanIdent h
    rw [← Nat.sub_add_cancel hpos, List.take_succ_cons, List.drop_succ_cons] at hquoted
    exact hquoted hmark
  exact iteInduction (fun _ => other nofun nofun nofun) fun _ => single

theorem numberLength_backslash (s : List Char) : numberLength ('\\' :: s) = 0 := by
  simp [numberLength, Number.signLength, Number.digitsLength, fractionLength_cons]

/-- A backslash in front of a line end is no escape. -/
theorem scan_backslash_of_startsNewline {s : List Char} (h : startsNewline s = true) :
    scan '\\' s = (.delimiter, 0) := by
  have hident : startsIdent ('\\' :: s) = false := by
    rw [startsIdent, h]
    rfl
  unfold scan
  rw [numberLength_backslash, hident]
  rfl

theorem scan_backslash_nil : (scan '\\' []).1 = .ident := by
  have hempty : nameLength [] = 0 := by rw [nameLength]
  have hname : nameLength ['\\'] = 1 := by
    rw [nameLength]
    exact congrArg (1 + ·) hempty
  have hident : startsIdent ['\\'] = true := rfl
  unfold scan
  rw [numberLength_backslash, hident]
  change (scanIdent ['\\']).1 = .ident
  rw [scanIdent, hname]
  rfl

/-! ## Rows of tokens -/

/-- A token as it is read off the front of some text. -/
def IsScanned (t : Token) : Prop :=
  ∃ c cs, t.kind = (scan c cs).1 ∧ t.text = c :: cs.take (scan c cs).2

theorem isScanned_of_mem_lex {loc : Location} {cs : List Char} {t : Token} (h : t ∈ lex loc cs) :
    t.IsScanned := by
  revert h
  fun_induction lex loc cs with
  | case1 => exact fun h => absurd h List.not_mem_nil
  | case2 loc c cs kind n hscan text ih =>
    intro h
    rcases List.mem_cons.1 h with rfl | h
    · exact ⟨c, cs, by rw [hscan], by rw [hscan]⟩
    · exact ih h

theorem isScanned_of_mem_row {cs : List Char} {t : Token} (h : t ∈ row cs) : t.IsScanned := by
  obtain ⟨u, hu, rfl⟩ := List.mem_map.1 h
  exact @isScanned_of_mem_lex _ _ u hu

namespace IsScanned

variable {t : Token} (h : t.IsScanned)

include h

theorem text_ne_nil : t.text ≠ [] := by
  obtain ⟨c, cs, -, htext⟩ := h
  rw [htext]
  exact List.cons_ne_nil _ _

theorem isSpace_of_whiteSpace (hkind : t.kind = .whiteSpace) : ∀ c ∈ t.text, isSpace c = true := by
  obtain ⟨c, cs, hscan, htext⟩ := h
  obtain ⟨hfirst, hlength⟩ := (origin_scan c cs).space (hscan.symm.trans hkind)
  rw [htext, hlength]
  refine List.forall_mem_cons.2 ⟨hfirst, fun d hd => ?_⟩
  have htake : cs.take (spaceLength cs) = cs.takeWhile isSpace :=
    (List.prefix_iff_eq_take.1 (List.takeWhile_prefix isSpace)).symm
  rw [htake] at hd
  exact List.mem_takeWhile_imp hd

theorem whiteSpace_of_isSpace (hspaces : ∀ c ∈ t.text, isSpace c = true) : t.kind = .whiteSpace := by
  obtain ⟨c, cs, hscan, htext⟩ := h
  rw [htext] at hspaces
  rw [hscan, scan, if_pos (hspaces c List.mem_cons_self)]

end IsScanned

/-- The tokens behind some first ones are those of the text behind these. -/
theorem row_behind {cs : List Char} {ts us : List Token} (h : row cs = ts ++ us) :
    row (us.flatMap text) = us := by
  induction ts generalizing cs with
  | nil =>
    have htext := flatMap_text_row cs
    rw [h, List.nil_append] at htext
    rw [htext, h, List.nil_append]
  | cons t ts ih =>
    cases cs with
    | nil =>
      rw [row_nil] at h
      cases h
    | cons c cs =>
      rw [row_cons, List.cons_append] at h
      exact ih (List.cons.inj h).2

theorem flatMap_text_eq_nil {ts : List Token} (hne : ∀ t ∈ ts, t.text ≠ [])
    (h : ts.flatMap text = []) : ts = [] := by
  cases ts with
  | nil => rfl
  | cons t ts => exact absurd (List.append_eq_nil_iff.1 h).1 (hne t List.mem_cons_self)

/-- What is left of a row of tokens is one character only if that is the last token. -/
theorem text_getLast?_of_flatMap {ts : List Token} (hne : ∀ t ∈ ts, t.text ≠ []) {x : Char}
    (h : ts.flatMap text = [x]) : ∃ t ∈ ts.getLast?, t.text = [x] := by
  have hts : ts ≠ [] := by
    rintro rfl
    cases h
  refine ⟨ts.getLast hts, List.getLast?_eq_some_getLast hts, ?_⟩
  rw [← List.dropLast_concat_getLast hts, List.flatMap_append, List.flatMap_singleton] at h
  rcases List.append_eq_singleton_iff.1 h with ⟨-, hlast⟩ | ⟨-, hlast⟩
  · exact hlast
  · exact absurd hlast (hne _ (List.getLast_mem hts))

/-- The first token of a text is cut off in the same way when what stands far behind it is left out. -/
theorem row_cons_of_append {s w : List Char} {t : Token} {us : List Token}
    (hback : s.head? ≠ some '\\') (hnil : s ≠ []) (h : row (t.text ++ (w ++ s)) = t :: us)
    (hlone : startsNewline s = true → w ≠ ['\\'])
    (hlast : startsNewline s = true → w = [] → t.kind ≠ .badString ∧ t.text ≠ ['\\'])
    (hquoted : startsQuoted s = true → (∀ c ∈ w, isSpace c = true) → ¬t.HangsOnQuote) :
    row (t.text ++ w) = t :: row w ∧ us = row (w ++ s) := by
  cases hwhole : t.text ++ (w ++ s) with
  | nil =>
    rw [hwhole, row_nil] at h
    cases h
  | cons c cs =>
    rw [hwhole, row_cons] at h
    obtain ⟨rfl, hrest⟩ := List.cons.inj h
    have hcut : cs.take (scan c cs).2 ++ (w ++ s) = cs := (List.cons.inj hwhole).2
    have hdrop : cs.drop (scan c cs).2 = w ++ s :=
      List.append_cancel_left ((List.take_append_drop _ cs).trans hcut.symm)
    have hlength : (scan c cs).2 < cs.length := by
      have hsum := congrArg List.length hdrop
      have := List.length_pos_iff.2 hnil
      rw [List.length_drop, List.length_append] at hsum
      omega
    -- the token ends in `body`, with `w` left of that, and `s` stands behind
    obtain ⟨body, hbody⟩ : ∃ body, body = cs.take (scan c cs).2 ++ w := ⟨_, rfl⟩
    have hcs : cs = body ++ s := by rw [hbody, List.append_assoc, hcut]
    have hfront : (cs.take (scan c cs).2).length = (scan c cs).2 :=
      List.length_take_of_le hlength.le
    have htake : body.take (scan c cs).2 = cs.take (scan c cs).2 := by
      rw [hbody, List.take_append_of_le_length hfront.ge, List.take_take, Nat.min_self]
    have hwback : body.drop (scan c cs).2 = w := by
      rw [hbody, List.drop_append_of_le_length hfront.ge, List.drop_take, Nat.sub_self,
        List.take_zero, List.nil_append]
    have hend : EndsIn [c] body s (scan c (body ++ s)) := by
      rw [← hcs]
      refine ⟨?_, fun hs => ?_, fun hs hall => ?_, fun hs hspaces hkind => ?_⟩
      · rw [hbody, List.length_append, hfront]
        exact Nat.le_add_right _ _
      · rw [hwback]
        exact hlone hs
      · rw [hwback] at hall
        exact (hlast hs hall).1
      · rw [hwback] at hspaces
        rw [htake]
        exact Bool.eq_false_iff.2 fun hmark => hquoted hs hspaces ⟨hkind, hmark⟩
    have hscan : scan c body = scan c cs := by
      rw [hcs]
      refine scan_of_append hback hend fun hs heq => ?_
      obtain ⟨hc, hempty⟩ := List.cons.inj heq
      rw [hbody, List.append_eq_nil_iff] at hempty
      refine (hlast hs hempty.2).2 ?_
      change c :: cs.take (scan c cs).2 = ['\\']
      rw [hempty.1, hc]
    refine ⟨?_, by rw [← hrest, hdrop]⟩
    rw [List.cons_append, ← hbody, row_cons, hscan, htake, hwback]

/-- What a token is does not hang on a line end if it is the last one of a text. -/
theorem not_hangsOnLineEnd_of_getLast? {cs : List Char} {t : Token} (h : (row cs).getLast? = some t) :
    ¬t.HangsOnLineEnd := by
  obtain ⟨ts, hsplit⟩ := List.getLast?_eq_some_iff.1 h
  have halone : row t.text = [t] := by
    have hbehind := row_behind hsplit
    rwa [List.flatMap_singleton] at hbehind
  cases htext : t.text with
  | nil =>
    rw [htext, row_nil] at halone
    cases halone
  | cons c ds =>
    rw [htext, row_cons] at halone
    obtain ⟨rfl, hrest⟩ := List.cons.inj halone
    have hall : ds.drop (scan c ds).2 = [] := by
      have hsum := flatMap_text_row (ds.drop (scan c ds).2)
      rw [hrest] at hsum
      exact hsum.symm
    rintro (hstring | ⟨hkind, hbackslash⟩)
    · have hnewline := (origin_scan c ds).string hstring
      rw [hall] at hnewline
      cases hnewline
    · rw [htext] at hbackslash
      obtain ⟨rfl, rfl⟩ := List.cons.inj hbackslash
      exact absurd (scan_backslash_nil.symm.trans hkind) (by decide)

/-- A backslash that is a token of its own in front of a line end hangs on that. -/
theorem hangsOnLineEnd_of_text {s : List Char} {t : Token} {us : List Token}
    (h : row (t.text ++ s) = t :: us) (hs : startsNewline s = true) (htext : t.text = ['\\']) :
    t.HangsOnLineEnd := by
  refine .inr ⟨?_, htext⟩
  rw [htext, List.singleton_append, row_cons, scan_backslash_of_startsNewline hs] at h
  rw [← (List.cons.inj h).1]

/-- The last of some tokens that is no white space hangs on a quotation mark. -/
def AwaitQuote (ts : List Token) : Prop :=
  ∃ front t spaces, ts = front ++ t :: spaces ∧ (∀ u ∈ spaces, u.kind = .whiteSpace) ∧ t.HangsOnQuote

theorem AwaitQuote.behind {us : List Token} (h : AwaitQuote us) (ts : List Token) :
    AwaitQuote (ts ++ us) := by
  obtain ⟨front, t, spaces, rfl, hspaces, ht⟩ := h
  exact ⟨ts ++ front, t, spaces, (List.append_assoc _ _ _).symm, hspaces, ht⟩

/-- A text that is read alone does not end in front of a quotation mark. -/
theorem not_awaitQuote_row (cs : List Char) : ¬AwaitQuote (row cs) := by
  rintro ⟨front, t, spaces, hsplit, hspaces, hkind, hmark⟩
  have hblanks : ∀ c ∈ spaces.flatMap text, isSpace c = true := by
    intro c hc
    obtain ⟨u, hu, hcu⟩ := List.mem_flatMap.1 hc
    have hmem : u ∈ row cs :=
      hsplit ▸ List.mem_append_right front (List.mem_cons_of_mem t hu)
    exact (isScanned_of_mem_row hmem).isSpace_of_whiteSpace (hspaces u hu) c hcu
  have halone := row_behind hsplit
  rw [List.flatMap_cons] at halone
  cases hwhole : t.text ++ spaces.flatMap text with
  | nil =>
    rw [hwhole, row_nil] at halone
    cases halone
  | cons c ds =>
    rw [hwhole, row_cons] at halone
    obtain ⟨rfl, -⟩ := List.cons.inj halone
    have hquoted := (origin_scan c ds).quoted hkind hmark
    have hcut : ds.take (scan c ds).2 ++ spaces.flatMap text = ds := (List.cons.inj hwhole).2
    have hdrop : ds.drop (scan c ds).2 = spaces.flatMap text :=
      List.append_cancel_left ((List.take_append_drop _ ds).trans hcut.symm)
    rw [hdrop, startsQuoted_of_spaces hblanks] at hquoted
    cases hquoted

/-- Tokens in front of a text are those of their own text, unless a line end or a quotation mark follows
and the last of them hangs on that. -/
theorem row_of_append {s : List Char} (hback : s.head? ≠ some '\\') {ts us : List Token}
    (h : row (ts.flatMap text ++ s) = ts ++ us)
    (hlast : startsNewline s = true → ∀ t ∈ ts.getLast?, ¬t.HangsOnLineEnd)
    (hquoted : startsQuoted s = true → ¬AwaitQuote ts) : row (ts.flatMap text) = ts := by
  have hscanned : ∀ t ∈ ts ++ us, t.IsScanned := fun t ht => isScanned_of_mem_row (h ▸ ht)
  have hus : us.flatMap text = s := by
    have htext := flatMap_text_row (ts.flatMap text ++ s)
    rw [h, List.flatMap_append] at htext
    exact List.append_cancel_left htext
  by_cases hnil : s = []
  · obtain rfl := flatMap_text_eq_nil
      (fun t ht => (hscanned t (List.mem_append_right _ ht)).text_ne_nil) (hus.trans hnil)
    rwa [hnil, List.append_nil, List.append_nil] at h
  have hlast' : startsNewline s = true →
      ∀ t ∈ ts.getLast?, t.kind ≠ .badString ∧ t.text ≠ ['\\'] := by
    intro hnewline t ht
    refine ⟨fun hstring => hlast hnewline t ht (.inl hstring), fun htext => ?_⟩
    obtain ⟨front, hsplit⟩ := List.getLast?_eq_some_iff.1 (Option.mem_def.1 ht)
    rw [hsplit, List.append_assoc] at h
    have hbehind := row_behind h
    rw [List.flatMap_append, List.flatMap_singleton, hus] at hbehind
    exact hlast hnewline t ht (hangsOnLineEnd_of_text hbehind hnewline htext)
  clear hlast hus
  induction ts with
  | nil => exact row_nil
  | cons t ts ih =>
    obtain ⟨-, hscanned⟩ := List.forall_mem_cons.1 hscanned
    have hts : ∀ t ∈ ts, t.IsScanned := fun t ht => hscanned t (List.mem_append_left us ht)
    have hne : ∀ t ∈ ts, t.text ≠ [] := fun t ht => (hts t ht).text_ne_nil
    have hbehind : ∀ u ∈ ts.getLast?, u ∈ (t :: ts).getLast? := by
      intro u hu
      rw [List.getLast?_cons, Option.mem_def.1 hu]
      rfl
    rw [List.flatMap_cons, List.append_assoc] at h
    obtain ⟨hfirst, hrest⟩ := row_cons_of_append hback hnil h
      (fun hs hlone => by
        obtain ⟨u, hu, htext⟩ := text_getLast?_of_flatMap hne hlone
        exact (hlast' hs u (hbehind u hu)).2 htext)
      (fun hs hall => by
        obtain rfl := flatMap_text_eq_nil hne hall
        exact hlast' hs t rfl)
      (fun hs hspaces hhangs => by
        refine hquoted hs ⟨[], t, ts, rfl, fun u hu => ?_, hhangs⟩
        exact (hts u hu).whiteSpace_of_isSpace fun c hc => hspaces c (List.mem_flatMap.2 ⟨u, hu, hc⟩))
    rw [List.flatMap_cons, hfirst, ih hrest.symm (fun hs hawait => hquoted hs (hawait.behind [t]))
      hscanned fun hs u hu => hlast' hs u (hbehind u hu)]

end Restyle.Css.Token
