import Mathlib.Tactic.SplitIfs
import Restyle.Css.Token.Lexer

/-!
# Where tokens end

A stop is a character like `;` or a curly bracket: it is a token of its own, and no token goes on with
it unless that token is a string, a comment, an address or an escape that is still open.  A token that
ends before a stop ends there whatever follows (`scan_stop`), so a text that ends in a stop as a token
of its own is cut into the same tokens with any text behind it (`lex_append`).
-/

namespace Restyle.Css.Token

/-- The characters that some token takes in, or looks for, one by one. -/
def sought : List Char :=
  ['\\', '%', '(', ')', '.', '*', '/', '-', '+', '>', '=', 'e', 'E', '!', '#', '@', '<', '\n', '\r']

/-- A character that no number, name or mark goes on with. -/
structure Stop (x : Char) : Prop where
  space : isSpace x = false
  newline : isNewline x = false
  hexDigit : isHexDigit x = false
  digit : x.isDigit = false
  nameStart : isNameStart x = false
  nameChar : isNameChar x = false
  barred : isBarredInUrl x = false
  quote : isQuote x = false
  comparison : isComparison x = false
  notMem : x ∉ sought

theorem Stop.ne {x : Char} (hx : Stop x) (y : Char) (hy : y ∈ sought) : x ≠ y := by
  rintro rfl
  exact hx.notMem hy

theorem stop_semicolon : Stop ';' := by
  constructor <;> decide

theorem stop_closingCurly : Stop '\x7d' := by
  constructor <;> decide

/-! ## The first characters of a text -/

theorem newlineLength_cons (c : Char) (cs : List Char) : newlineLength (c :: cs) =
    if c = '\r' ∧ cs.head? = some '\n' then 2 else if isNewline c then 1 else 0 := by
  unfold newlineLength
  split
  · next heq =>
    obtain ⟨rfl, rfl⟩ := List.cons.inj heq
    rfl
  · next d ds hne heq =>
    obtain ⟨rfl, rfl⟩ := List.cons.inj heq
    have hno : ¬(c = '\r' ∧ cs.head? = some '\n') := by
      rintro ⟨rfl, hhead⟩
      obtain ⟨ds, rfl⟩ := List.head?_eq_some_iff.1 hhead
      exact hne ds rfl rfl
    rw [if_neg hno]
  · next heq => cases heq

theorem startsIdent_cons (c : Char) (cs : List Char) : startsIdent (c :: cs) =
    if c = '-' then (cs.head?.map fun d => isNameStart d || d == '-' || d == '\\').getD false
    else if c = '\\' then !startsNewline cs else isNameStart c := by
  unfold startsIdent
  split
  · simp_all
  · simp_all
  · next d ds hminus hbackslash heq =>
    obtain ⟨rfl, rfl⟩ := List.cons.inj heq
    cases cs with
    | nil =>
      by_cases h : c = '-'
      · subst h
        decide
      · simp_all
    | cons d ds => simp_all
  · next heq => cases heq

theorem signLength_cons (c : Char) (cs : List Char) :
    Number.signLength (c :: cs) = if c = '+' ∨ c = '-' then 1 else 0 := by
  unfold Number.signLength
  split <;> simp_all

theorem fractionLength_cons (c : Char) (cs : List Char) : fractionLength (c :: cs) =
    if c = '.' ∧ Number.digitsLength cs ≠ 0 then Number.digitsLength cs + 1 else 0 := by
  unfold fractionLength
  split
  · next heq =>
    obtain ⟨rfl, rfl⟩ := List.cons.inj heq
    cases Number.digitsLength cs <;> simp
  · simp_all

theorem exponentLength_cons (c : Char) (cs : List Char) :
    Number.exponentLength (c :: cs) =
      if (c = 'e' ∨ c = 'E') ∧ Number.digitsLength (cs.drop (Number.signLength cs)) ≠ 0 then
        Number.digitsLength (cs.drop (Number.signLength cs)) + 1 + Number.signLength cs
      else 0 := by
  unfold Number.exponentLength
  dsimp only
  generalize Number.digitsLength (cs.drop (Number.signLength cs)) = n
  cases n <;> simp

theorem scanUnit_eq (n : Nat) (cs : List Char) : scanUnit n cs =
    if (cs.drop n).head? = some '%' then (.percentage, n + 1)
    else if startsIdent (cs.drop n) then (.dimension, n + nameLength (cs.drop n))
    else (.number, n) := by
  unfold scanUnit
  split
  · next heq => rw [heq]; rfl
  · next hne =>
    have hno : (cs.drop n).head? ≠ some '%' := by
      intro hhead
      obtain ⟨rest, heq⟩ := List.head?_eq_some_iff.1 hhead
      exact hne rest heq
    rw [if_neg hno]

/-- Where no round bracket follows, a name is an identifier. -/
theorem scanIdent_of_head?_ne {cs : List Char} (h : (cs.drop (nameLength cs)).head? ≠ some '(') :
    scanIdent cs = (.ident, nameLength cs) := by
  unfold scanIdent
  dsimp only
  split
  · next heq => exact absurd (by rw [heq]; rfl) h
  · rfl

/-! ## Lengths lie within the text -/

theorem length_takeWhile_le (p : Char → Bool) (cs : List Char) :
    (cs.takeWhile p).length ≤ cs.length :=
  (List.takeWhile_sublist p).length_le

theorem newlineLength_le (cs : List Char) : newlineLength cs ≤ cs.length := by
  cases cs with
  | nil => exact Nat.le_refl _
  | cons c cs =>
    rw [newlineLength_cons, List.length_cons]
    split
    · next h =>
      obtain ⟨ds, rfl⟩ := List.head?_eq_some_iff.1 h.2
      rw [List.length_cons]
      omega
    · split <;> omega

theorem hexDigits_length_le (cs : List Char) : (hexDigits cs).length ≤ cs.length := by
  have := length_takeWhile_le isHexDigit (cs.take 6)
  rw [List.length_take] at this
  rw [hexDigits]
  omega

theorem gapLength_le (cs : List Char) : gapLength cs ≤ cs.length := by
  cases cs with
  | nil => exact Nat.le_refl _
  | cons c cs =>
    have := newlineLength_le (c :: cs)
    rw [List.length_cons] at this
    rw [gapLength, List.length_cons]
    split
    · exact this
    · split <;> omega

theorem escapeLength_le (cs : List Char) : escapeLength cs ≤ cs.length := by
  have hdigits := hexDigits_length_le cs
  have hgap := gapLength_le (cs.drop (hexDigits cs).length)
  rw [List.length_drop] at hgap
  unfold escapeLength
  dsimp only
  split <;> omega

theorem nameLength_le (cs : List Char) : nameLength cs ≤ cs.length := by
  fun_induction nameLength cs with
  | case1 => exact Nat.le_refl _
  | case2 => exact Nat.zero_le _
  | case3 c cs hc hnewline ih =>
    have := escapeLength_le cs
    rw [List.length_drop] at ih
    rw [List.length_cons]
    omega
  | case4 c cs hc hname ih =>
    rw [List.length_cons]
    omega
  | case5 => exact Nat.zero_le _

/-- What a backslash in a string takes in lies within the text. -/
theorem stringEscape_le (cs : List Char) :
    (if startsNewline cs then newlineLength cs else escapeLength cs) ≤ cs.length := by
  split
  · exact newlineLength_le cs
  · exact escapeLength_le cs

theorem signLength_le (cs : List Char) : Number.signLength cs ≤ cs.length := by
  cases cs with
  | nil => exact Nat.le_refl _
  | cons c cs =>
    rw [signLength_cons, List.length_cons]
    split <;> omega

theorem digitsLength_le (cs : List Char) : Number.digitsLength cs ≤ cs.length :=
  length_takeWhile_le _ cs

theorem fractionLength_le (cs : List Char) : fractionLength cs ≤ cs.length := by
  cases cs with
  | nil => exact Nat.le_refl _
  | cons c cs =>
    have := digitsLength_le cs
    rw [fractionLength_cons, List.length_cons]
    split <;> omega

theorem exponentLength_le (cs : List Char) : Number.exponentLength cs ≤ cs.length := by
  cases cs with
  | nil => exact Nat.le_refl _
  | cons c cs =>
    have hsign := signLength_le cs
    have hdigits := digitsLength_le (cs.drop (Number.signLength cs))
    rw [List.length_drop] at hdigits
    rw [exponentLength_cons, List.length_cons]
    split <;> omega

/-- The digits of a number with its sign, and with its fraction, lie within the text. -/
theorem brokenLength_le (cs : List Char) :
    Number.signLength cs + Number.digitsLength (cs.drop (Number.signLength cs)) ≤ cs.length ∧
      Number.signLength cs + Number.digitsLength (cs.drop (Number.signLength cs)) +
        fractionLength (cs.drop (Number.signLength cs +
          Number.digitsLength (cs.drop (Number.signLength cs)))) ≤ cs.length := by
  have hsign := signLength_le cs
  have hdigits := digitsLength_le (cs.drop (Number.signLength cs))
  have hfraction := fractionLength_le
    (cs.drop (Number.signLength cs + Number.digitsLength (cs.drop (Number.signLength cs))))
  rw [List.length_drop] at hdigits hfraction
  omega

theorem numberLength_le (cs : List Char) : numberLength cs ≤ cs.length := by
  have hbroken := (brokenLength_le cs).2
  unfold numberLength
  dsimp only
  split
  · exact Nat.zero_le _
  · have hexponent := exponentLength_le (cs.drop (Number.signLength cs +
      Number.digitsLength (cs.drop (Number.signLength cs)) + fractionLength (cs.drop
        (Number.signLength cs + Number.digitsLength (cs.drop (Number.signLength cs))))))
    rw [List.length_drop] at hexponent
    omega

theorem nameLength_le_scanIdent (cs : List Char) : nameLength cs ≤ (scanIdent cs).2 := by
  unfold scanIdent
  dsimp only
  split
  · split
    · dsimp only
      omega
    · exact Nat.le_succ _
  · exact Nat.le_refl _

/-! ## A stop behind a text -/

section

variable {x : Char}

theorem takeWhile_stop {p : Char → Bool} (hp : p x = false) (cs s : List Char) :
    (cs ++ x :: s).takeWhile p = cs.takeWhile p := by
  induction cs with
  | nil => rw [List.nil_append, List.takeWhile_cons, hp]; rfl
  | cons c cs ih => rw [List.cons_append, List.takeWhile_cons, List.takeWhile_cons, ih]

theorem drop_stop {n : Nat} {cs : List Char} (h : n ≤ cs.length) (s : List Char) :
    (cs ++ x :: s).drop n = cs.drop n ++ x :: s :=
  List.drop_append_of_le_length h

theorem head?_stop {y : Char} (hy : x ≠ y) (cs s : List Char) :
    (cs ++ x :: s).head? = some y ↔ cs.head? = some y := by
  cases cs with
  | nil => simp [hy]
  | cons c cs => rfl

theorem headIs_stop {p : Char → Bool} (hp : p x = false) (cs s : List Char) :
    ((cs ++ x :: s).head?.map p).getD false = (cs.head?.map p).getD false := by
  cases cs with
  | nil => exact hp
  | cons c cs => rfl

theorem isPrefixOf_stop {front : List Char} (hfront : x ∉ front) (cs s : List Char) :
    front.isPrefixOf (cs ++ x :: s) = front.isPrefixOf cs := by
  induction front generalizing cs with
  | nil => simp
  | cons d front ih =>
    obtain ⟨hd, hfront⟩ := not_or.1 (mt List.mem_cons.2 hfront)
    cases cs with
    | nil => simp [List.isPrefixOf, Ne.symm hd]
    | cons c cs => simp only [List.cons_append, List.isPrefixOf, ih hfront]

theorem ite_stop {p : Prop} [Decidable p] {n : Nat} {a a' a'' b b' b'' : Kind × Nat}
    (ha : p → a.2 ≤ n → a' = a'') (hb : ¬p → b.2 ≤ n → b' = b'') (h : (if p then a else b).2 ≤ n) :
    (if p then a' else b') = if p then a'' else b'' := by
  by_cases hp : p
  · rw [if_pos hp] at h
    rw [if_pos hp, if_pos hp, ha hp h]
  · rw [if_neg hp] at h
    rw [if_neg hp, if_neg hp, hb hp h]

variable (hx : Stop x)

include hx

theorem spaceLength_stop (cs s : List Char) : spaceLength (cs ++ x :: s) = spaceLength cs := by
  rw [spaceLength, takeWhile_stop hx.space, spaceLength]

theorem digitsLength_stop (cs s : List Char) :
    Number.digitsLength (cs ++ x :: s) = Number.digitsLength cs := by
  rw [Number.digitsLength, takeWhile_stop hx.digit, Number.digitsLength]

theorem startsNewline_stop (cs s : List Char) :
    startsNewline (cs ++ x :: s) = startsNewline cs := by
  cases cs with
  | nil => exact hx.newline
  | cons c cs => rfl

theorem newlineLength_stop (cs s : List Char) :
    newlineLength (cs ++ x :: s) = newlineLength cs := by
  have hcr : x ≠ '\r' := hx.ne _ (by decide)
  have hlf : x ≠ '\n' := hx.ne _ (by decide)
  cases cs with
  | nil =>
    rw [List.nil_append, newlineLength_cons, hx.newline, if_neg fun h => hcr h.1]
    rfl
  | cons c cs =>
    simp only [List.cons_append, newlineLength_cons, head?_stop hlf]

theorem startsIdent_stop (cs s : List Char) : startsIdent (cs ++ x :: s) = startsIdent cs := by
  have hbackslash : x ≠ '\\' := hx.ne _ (by decide)
  have hminus : x ≠ '-' := hx.ne _ (by decide)
  cases cs with
  | nil =>
    rw [List.nil_append, startsIdent_cons, if_neg hminus, if_neg hbackslash, hx.nameStart]
    rfl
  | cons c cs =>
    rw [List.cons_append, startsIdent_cons, startsIdent_cons, startsNewline_stop hx]
    cases cs with
    | nil =>
      congr 1
      simp [hx.nameStart, hbackslash, hminus]
    | cons d cs => rfl

/-! ## Escapes and names -/

theorem hexDigits_stop (cs s : List Char) : hexDigits (cs ++ x :: s) = hexDigits cs := by
  rw [hexDigits, hexDigits, List.take_append]
  cases 6 - cs.length with
  | zero => simp
  | succ n => rw [List.take_succ_cons, takeWhile_stop hx.hexDigit]

theorem gapLength_stop (cs s : List Char) : gapLength (cs ++ x :: s) = gapLength cs := by
  have same := newlineLength_stop hx cs s
  cases cs with
  | nil => simp [gapLength, hx.newline, hx.space]
  | cons c cs =>
    rw [List.cons_append] at same
    simp only [List.cons_append, gapLength, same]

theorem escapeLength_stop {cs : List Char} (h : cs ≠ []) (s : List Char) :
    escapeLength (cs ++ x :: s) = escapeLength cs := by
  have hlength : 0 < cs.length := List.length_pos_iff.2 h
  unfold escapeLength
  dsimp only
  rw [hexDigits_stop hx, drop_stop (hexDigits_length_le cs), gapLength_stop hx, List.length_append]
  congr 1
  omega

/-- Nothing but the stop is left to escape. -/
theorem escapeLength_cons_stop (s : List Char) : escapeLength (x :: s) = 1 := by
  have hdigits : hexDigits (x :: s) = [] := hexDigits_stop hx [] s
  simp [escapeLength, hdigits]

/-- A name that ends before a stop ends there whatever follows. -/
theorem nameLength_stop {cs : List Char} (h : nameLength (cs ++ [x]) ≤ cs.length)
    (s : List Char) : nameLength (cs ++ x :: s) = nameLength cs := by
  have hbackslash : x ≠ '\\' := hx.ne _ (by decide)
  fun_induction nameLength cs with
  | case1 => simp [nameLength, hbackslash, hx.nameChar]
  | case2 c cs hc hnewline =>
    rw [List.cons_append, nameLength, if_pos hc, if_pos ((startsNewline_stop hx cs s).trans hnewline)]
  | case3 c cs hc hnewline ih =>
    have keeps : ∀ s, ¬startsNewline (cs ++ x :: s) = true := fun s => by
      rw [startsNewline_stop hx]
      exact hnewline
    rw [List.cons_append, nameLength, if_pos hc, if_neg (keeps _), List.length_cons] at h
    rw [List.cons_append, nameLength, if_pos hc, if_neg (keeps _)]
    have hcs : cs ≠ [] := by
      rintro rfl
      rw [List.nil_append, escapeLength_cons_stop hx] at h
      simp only [List.length_nil] at h
      omega
    rw [escapeLength_stop hx hcs, drop_stop (escapeLength_le cs)] at h ⊢
    rw [ih (by rw [List.length_drop]; omega)]
  | case4 c cs hc hname ih =>
    rw [List.cons_append, nameLength, if_neg hc, if_pos hname, List.length_cons] at h
    rw [List.cons_append, nameLength, if_neg hc, if_pos hname, ih (by omega)]
  | case5 c cs hc hname =>
    rw [List.cons_append, nameLength, if_neg hc, if_neg hname]

/-! ## Numbers -/

theorem signLength_stop (cs s : List Char) :
    Number.signLength (cs ++ x :: s) = Number.signLength cs := by
  have hplus : x ≠ '+' := hx.ne _ (by decide)
  have hminus : x ≠ '-' := hx.ne _ (by decide)
  cases cs with
  | nil =>
    rw [List.nil_append, signLength_cons, if_neg (not_or.2 ⟨hplus, hminus⟩)]
    rfl
  | cons c cs => rw [List.cons_append, signLength_cons, signLength_cons]

theorem fractionLength_stop (cs s : List Char) :
    fractionLength (cs ++ x :: s) = fractionLength cs := by
  have hpoint : x ≠ '.' := hx.ne _ (by decide)
  cases cs with
  | nil =>
    rw [List.nil_append, fractionLength_cons, if_neg fun h => hpoint h.1]
    rfl
  | cons c cs =>
    rw [List.cons_append, fractionLength_cons, fractionLength_cons, digitsLength_stop hx]

theorem exponentLength_stop (cs s : List Char) :
    Number.exponentLength (cs ++ x :: s) = Number.exponentLength cs := by
  have he : x ≠ 'e' := hx.ne _ (by decide)
  have hE : x ≠ 'E' := hx.ne _ (by decide)
  cases cs with
  | nil =>
    rw [List.nil_append, exponentLength_cons, if_neg fun h => h.1.elim he hE]
    rfl
  | cons c cs =>
    rw [List.cons_append, exponentLength_cons, exponentLength_cons, signLength_stop hx,
      drop_stop (signLength_le cs), digitsLength_stop hx]

theorem numberLength_stop (cs s : List Char) : numberLength (cs ++ x :: s) = numberLength cs := by
  obtain ⟨hwhole, hbroken⟩ := brokenLength_le cs
  unfold numberLength
  simp only [signLength_stop hx, drop_stop (signLength_le cs), digitsLength_stop hx,
    drop_stop hwhole, fractionLength_stop hx, drop_stop hbroken, exponentLength_stop hx]

/-! ## Strings, comments and addresses -/

theorem stringEscape_stop {cs : List Char} (h : cs ≠ []) (s : List Char) :
    (if startsNewline (cs ++ x :: s) then newlineLength (cs ++ x :: s)
      else escapeLength (cs ++ x :: s)) =
    if startsNewline cs then newlineLength cs else escapeLength cs := by
  rw [startsNewline_stop hx, newlineLength_stop hx, escapeLength_stop hx h]

theorem scanString_stop {quote : Char} (hquote : x ≠ quote) {cs : List Char}
    (h : (scanString quote (cs ++ [x])).2 ≤ cs.length) (s : List Char) :
    scanString quote (cs ++ x :: s) = scanString quote cs := by
  have hbackslash : x ≠ '\\' := hx.ne _ (by decide)
  fun_induction scanString quote cs with
  | case1 => simp [scanString, hquote, hbackslash, hx.newline] at h
  | case2 c cs hc => rw [List.cons_append, scanString, if_pos hc]
  | case3 c cs hc hnewline => rw [List.cons_append, scanString, if_neg hc, if_pos hnewline]
  | case4 c cs hc hnewline hescape n kind m hrest ih =>
    rw [List.cons_append, scanString, if_neg hc, if_neg hnewline, if_pos hescape] at h ⊢
    have hcs : cs ≠ [] := by
      rintro rfl
      simp [startsNewline, hx.newline, escapeLength_cons_stop hx, scanString] at h
    have hn : (if startsNewline cs then newlineLength cs else escapeLength cs) = n := rfl
    dsimp only at h ⊢
    rw [stringEscape_stop hx hcs, drop_stop (stringEscape_le cs), hn, List.length_cons] at h
    rw [stringEscape_stop hx hcs, drop_stop (stringEscape_le cs), hn, ih, hrest]
    rw [List.length_drop]
    omega
  | case5 c cs hc hnewline hescape kind m hrest ih =>
    rw [List.cons_append, scanString, if_neg hc, if_neg hnewline, if_neg hescape] at h ⊢
    have hless : (scanString quote (cs ++ [x])).2 ≤ cs.length := by
      have : 1 + (scanString quote (cs ++ [x])).2 ≤ cs.length + 1 := h
      omega
    rw [ih hless, hrest]

theorem commentLength_stop {cs : List Char} (h : commentLength (cs ++ [x]) ≤ cs.length)
    (s : List Char) : commentLength (cs ++ x :: s) = commentLength cs := by
  have hslash : x ≠ '/' := hx.ne _ (by decide)
  fun_induction commentLength cs with
  | case1 => simp [commentLength] at h
  | case2 cs => simp [commentLength]
  | case3 c cs hopen ih =>
    have hopen' : ∀ s tail, c = '*' → cs ++ x :: s = '/' :: tail → False := by
      intro s tail hc heq
      cases cs with
      | nil => exact hslash (List.cons.inj heq).1
      | cons d cs => exact hopen cs hc (by rw [(List.cons.inj heq).1])
    rw [List.cons_append, commentLength.eq_3 _ _ (hopen' [])] at h
    rw [List.cons_append, commentLength.eq_3 _ _ (hopen' s), ih]
    rw [List.length_cons] at h
    omega

theorem badUrlLength_stop {cs : List Char} (h : badUrlLength (cs ++ [x]) ≤ cs.length)
    (s : List Char) : badUrlLength (cs ++ x :: s) = badUrlLength cs := by
  have hround : x ≠ ')' := hx.ne _ (by decide)
  have hbackslash : x ≠ '\\' := hx.ne _ (by decide)
  fun_induction badUrlLength cs with
  | case1 => simp [badUrlLength] at h
  | case2 cs => rw [List.cons_append, badUrlLength]
  | case3 cs ih =>
    rw [List.cons_append, List.cons_append, badUrlLength, List.length_cons, List.length_cons] at h
    rw [List.cons_append, List.cons_append, badUrlLength, ih (by omega)]
  | case4 cs ih =>
    rw [List.cons_append, List.cons_append, badUrlLength, List.length_cons, List.length_cons] at h
    rw [List.cons_append, List.cons_append, badUrlLength, ih (by omega)]
  | case5 c cs hclose hescape hdouble ih =>
    have passes : ∀ {y : Char}, x ≠ y → (∀ tail, c = '\\' → cs = y :: tail → False) →
        ∀ s tail, c = '\\' → cs ++ x :: s = y :: tail → False := by
      intro y hy hno s tail hc heq
      cases cs with
      | nil => exact hy (List.cons.inj heq).1
      | cons d cs => exact hno cs hc (by rw [(List.cons.inj heq).1])
    have step : ∀ s, badUrlLength (c :: (cs ++ x :: s)) = 1 + badUrlLength (cs ++ x :: s) :=
      fun s => badUrlLength.eq_5 c _ hclose (passes hround hescape s) (passes hbackslash hdouble s)
    rw [List.cons_append, step, List.length_cons] at h
    rw [List.cons_append, step, ih (by omega)]

theorem scanUrlEnd_stop {cs : List Char} (h : (scanUrlEnd (cs ++ [x])).2 ≤ cs.length)
    (s : List Char) : scanUrlEnd (cs ++ x :: s) = scanUrlEnd cs := by
  have hround : x ≠ ')' := hx.ne _ (by decide)
  have hspace : spaceLength cs ≤ cs.length := length_takeWhile_le _ cs
  have hlength : (cs.drop (spaceLength cs)).length = cs.length - spaceLength cs := List.length_drop
  unfold scanUrlEnd at h ⊢
  dsimp only at h ⊢
  rw [spaceLength_stop hx, drop_stop hspace] at h ⊢
  cases hrest : cs.drop (spaceLength cs) with
  | nil =>
    simp only [hrest, List.nil_append, beq_iff_eq, hround, if_false, List.length_nil] at h hlength
    omega
  | cons c rest =>
    simp only [hrest, List.cons_append, List.length_cons] at h hlength ⊢
    split
    · rfl
    · next hc =>
      rw [if_neg hc] at h
      rw [badUrlLength_stop hx (by omega)]

theorem scanUrl_stop {cs : List Char} (h : (scanUrl (cs ++ [x])).2 ≤ cs.length) (s : List Char) :
    scanUrl (cs ++ x :: s) = scanUrl cs := by
  have hround : x ≠ ')' := hx.ne _ (by decide)
  have hbackslash : x ≠ '\\' := hx.ne _ (by decide)
  fun_induction scanUrl cs with
  | case1 => simp [scanUrl, hround, hbackslash, hx.space, hx.barred] at h
  | case2 c cs hc => rw [List.cons_append, scanUrl, if_pos hc]
  | case3 c cs hc hspace =>
    rw [List.cons_append, scanUrl, if_neg hc, if_pos hspace] at h ⊢
    rw [← List.cons_append] at h ⊢
    exact scanUrlEnd_stop hx h s
  | case4 c cs hc hspace hbarred =>
    rw [List.cons_append, scanUrl, if_neg hc, if_neg hspace, if_pos hbarred] at h ⊢
    rw [badUrlLength_stop hx]
    rw [List.length_cons] at h
    dsimp only at h
    omega
  | case5 c cs hc hspace hbarred hescape hnewline =>
    have hnewline' : ∀ s, startsNewline (cs ++ x :: s) = true := fun s =>
      (startsNewline_stop hx cs s).trans hnewline
    rw [List.cons_append, scanUrl, if_neg hc, if_neg hspace, if_neg hbarred, if_pos hescape,
      if_pos (hnewline' _)] at h ⊢
    rw [badUrlLength_stop hx]
    rw [List.length_cons] at h
    dsimp only at h
    omega
  | case6 c cs hc hspace hbarred hescape hnewline n kind m hrest ih =>
    have hnewline' : ∀ s, ¬startsNewline (cs ++ x :: s) = true := fun s => by
      rw [startsNewline_stop hx]
      exact hnewline
    rw [List.cons_append, scanUrl, if_neg hc, if_neg hspace, if_neg hbarred, if_pos hescape,
      if_neg (hnewline' _)] at h ⊢
    have hcs : cs ≠ [] := by
      rintro rfl
      simp [escapeLength_cons_stop hx, scanUrl] at h
    have hn : escapeLength cs = n := rfl
    dsimp only at h ⊢
    rw [escapeLength_stop hx hcs, drop_stop (escapeLength_le cs), hn, List.length_cons] at h
    rw [escapeLength_stop hx hcs, drop_stop (escapeLength_le cs), hn, ih, hrest]
    rw [List.length_drop]
    omega
  | case7 c cs hc hspace hbarred hescape kind m hrest ih =>
    rw [List.cons_append, scanUrl, if_neg hc, if_neg hspace, if_neg hbarred, if_neg hescape] at h ⊢
    dsimp only at h ⊢
    rw [List.length_cons] at h
    rw [ih (by omega), hrest]

/-! ## Tokens -/

theorem scanUnit_stop {n : Nat} {cs : List Char} (hn : n ≤ cs.length)
    (h : (scanUnit n (cs ++ [x])).2 ≤ cs.length) (s : List Char) :
    scanUnit n (cs ++ x :: s) = scanUnit n cs := by
  have hhead := fun s => head?_stop (hx.ne '%' (by decide)) (cs.drop n) s
  have hident := fun s => startsIdent_stop hx (cs.drop n) s
  simp only [scanUnit_eq, drop_stop hn, hhead, hident] at h ⊢
  split
  · rfl
  · next hpercent =>
    rw [if_neg hpercent] at h
    split
    · next hstarts =>
      rw [if_pos hstarts] at h
      rw [nameLength_stop hx]
      rw [List.length_drop]
      dsimp only at h
      omega
    · rfl

theorem scanIdent_stop {cs : List Char} (h : (scanIdent (cs ++ [x])).2 ≤ cs.length)
    (s : List Char) : scanIdent (cs ++ x :: s) = scanIdent cs := by
  have hname := nameLength_stop hx (Nat.le_trans (nameLength_le_scanIdent _) h)
  have hdrop := fun s => drop_stop (x := x) (nameLength_le cs) s
  have hhead := fun s => head?_stop (hx.ne '(' (by decide)) (cs.drop (nameLength cs)) s
  by_cases hround : (cs.drop (nameLength cs)).head? = some '('
  · obtain ⟨rest, hrest⟩ := List.head?_eq_some_iff.1 hround
    have hspace : spaceLength rest ≤ rest.length := length_takeWhile_le _ rest
    have hlength : cs.length = nameLength cs + 1 + rest.length := by
      have := congrArg List.length hrest
      rw [List.length_drop, List.length_cons] at this
      omega
    have hquoted := headIs_stop hx.quote (rest.drop (spaceLength rest))
    unfold scanIdent at h ⊢
    simp only [hname, hdrop, hrest, List.cons_append, spaceLength_stop hx, drop_stop hspace, hquoted,
      List.take_append_of_le_length (nameLength_le cs)] at h ⊢
    split
    · next hurl =>
      rw [if_pos hurl] at h
      rw [scanUrl_stop hx]
      rw [List.length_drop]
      dsimp only at h
      omega
    · rfl
  · rw [scanIdent_of_head?_ne hround, scanIdent_of_head?_ne, hname]
    rwa [hname, hdrop, ne_eq, hhead]

/-- A token that ends before a stop ends there whatever follows. -/
theorem scan_stop {c : Char} {cs : List Char} (h : (scan c (cs ++ [x])).2 ≤ cs.length)
    (s : List Char) : scan c (cs ++ x :: s) = scan c cs := by
  have hminus : x ≠ '-' := hx.ne _ (by decide)
  have hgreater : x ≠ '>' := hx.ne _ (by decide)
  have hbang : x ≠ '!' := hx.ne _ (by decide)
  have hclose := isPrefixOf_stop (show x ∉ ['-', '>'] by simp [hminus, hgreater]) cs
  have hopen := isPrefixOf_stop (show x ∉ ['!', '-', '-'] by simp [hminus, hbang]) cs
  have hstarts := startsIdent_stop hx cs
  have hstarts' := startsIdent_stop hx (c :: cs)
  have hnumber := numberLength_stop hx (c :: cs)
  have hnamed : ∀ s, ((cs ++ x :: s).head?.map fun d => d.isDigit || d == '-').getD false =
      (cs.head?.map fun d => d.isDigit || d == '-').getD false :=
    headIs_stop (by simp [hx.digit, hminus]) cs
  have hstar : ∀ s, ((cs ++ x :: s).head? == some '*') = (cs.head? == some '*') := fun s =>
    Bool.eq_iff_iff.2 (by rw [beq_iff_eq, beq_iff_eq, head?_stop (hx.ne '*' (by decide))])
  have hequals : ∀ s, ((cs ++ x :: s).head? == some '=') = (cs.head? == some '=') := fun s =>
    Bool.eq_iff_iff.2 (by rw [beq_iff_eq, beq_iff_eq, head?_stop (hx.ne '=' (by decide))])
  unfold scan at h ⊢
  dsimp only at h ⊢
  rw [hclose, hopen, hstarts, ← List.cons_append, hstarts', hnumber, hnamed, hstar, hequals,
    spaceLength_stop hx] at h ⊢
  -- the cases are those of `scan`, the same on both sides
  refine ite_stop (fun _ _ => rfl) (fun _ => ?_) h
  refine ite_stop (fun hquote h => ?_) fun _ => ?_
  · refine scanString_stop hx ?_ h s
    rintro rfl
    rw [hx.quote] at hquote
    cases hquote
  refine ite_stop (fun _ => ite_stop (fun _ h => ?_) fun _ _ => rfl) fun _ => ?_
  · rw [nameLength_stop hx h]
  refine ite_stop (fun _ => ite_stop (fun _ h => ?_) fun _ _ => rfl) fun _ => ?_
  · rw [nameLength_stop hx h]
  refine ite_stop (fun hcomment h => ?_) fun _ => ?_
  · have hlength : 1 ≤ cs.length := by
      obtain ⟨rest, rfl⟩ := List.head?_eq_some_iff.1
        (beq_iff_eq.1 (Bool.and_eq_true_iff.1 hcomment).2)
      rw [List.length_cons]
      omega
    dsimp only at h
    rw [drop_stop hlength] at h
    rw [drop_stop hlength, commentLength_stop hx]
    rw [List.length_drop]
    omega
  refine ite_stop (fun _ h => ?_) fun _ => ?_
  · rw [scanUnit_stop hx (numberLength_le _)]
    rw [List.length_cons]
    dsimp only at h
    omega
  refine ite_stop (fun _ _ => rfl) fun _ => ?_
  refine ite_stop (fun _ _ => rfl) fun _ => ?_
  refine ite_stop (fun _ h => ?_) fun _ _ => rfl
  rw [scanIdent_stop hx]
  rw [List.length_cons]
  dsimp only at h
  omega

/-- A stop is a token of its own. -/
theorem scan_of_stop (s : List Char) : scan x s = (singleKind x, 0) := by
  have hhash : x ≠ '#' := hx.ne _ (by decide)
  have hat : x ≠ '@' := hx.ne _ (by decide)
  have hslash : x ≠ '/' := hx.ne _ (by decide)
  have hminus : x ≠ '-' := hx.ne _ (by decide)
  have hless : x ≠ '<' := hx.ne _ (by decide)
  have hbackslash : x ≠ '\\' := hx.ne _ (by decide)
  have hnumber : numberLength (x :: s) = 0 := numberLength_stop hx [] s
  have hident : startsIdent (x :: s) = false := startsIdent_stop hx [] s
  unfold scan
  dsimp only
  rw [hx.space, hx.quote, hx.comparison, hnumber, hident]
  simp [hhash, hat, hslash, hminus, hless]

/-- A text that ends in a stop as a token of its own is cut into the same tokens with any text
behind it. -/
theorem lex_append {loc : Location} {r : List Char} {ts : List Token} {t : Token}
    (h : lex loc r = ts ++ [t]) (ht : t.text = [x]) (s : List Char) :
    lex loc (r ++ s) = ts ++ t :: lex t.stop s := by
  fun_induction lex loc r generalizing ts with
  | case1 => exact absurd h (by simp)
  | case2 loc c cs kind n hscan text =>
    rename_i ih
    have hsum := flatMap_text_lex (loc.advance text) (cs.drop n)
    have hsplit : cs.take n ++ cs.drop n = cs := List.take_append_drop n cs
    obtain ⟨rfl, htail⟩ | ⟨us, rfl, htail⟩ := List.cons_eq_append_iff.1 h
    · -- the stop is all there is
      obtain ⟨rfl, hnil⟩ := List.cons.inj htail
      obtain ⟨rfl, htake⟩ : c = x ∧ cs.take n = [] := by simpa [text] using ht
      rw [← hnil] at hsum
      rw [htake, ← hsum] at hsplit
      obtain rfl : [] = cs := hsplit
      obtain ⟨rfl, rfl⟩ := Prod.mk.inj (hscan.symm.trans (scan_of_stop hx []))
      rw [List.singleton_append, lex, scan_of_stop hx]
      rfl
    · -- the stop comes behind this token, which ends before it
      rw [htail, List.flatMap_append, List.flatMap_singleton, ht] at hsum
      rw [← hsum, ← List.append_assoc] at hsplit
      have hn : n ≤ (cs.take n ++ us.flatMap Token.text).length := by
        have := congrArg List.length hsum
        rw [List.length_append, List.length_drop, List.length_singleton] at this
        rw [List.length_append, List.length_take]
        omega
      generalize cs.take n ++ us.flatMap Token.text = body at hsplit hn
      subst hsplit
      have hless : (scan c (body ++ [x])).2 ≤ body.length := by
        rw [hscan]
        exact hn
      have hscan' : scan c (body ++ [x] ++ s) = (kind, n) := by
        rw [List.append_assoc, List.singleton_append, scan_stop hx hless s, ← scan_stop hx hless [],
          hscan]
      have hlength : n ≤ (body ++ [x]).length := by
        rw [List.length_append]
        omega
      rw [List.cons_append, lex, hscan']
      dsimp only
      rw [List.take_append_of_le_length hlength, List.drop_append_of_le_length hlength, ih htail]
      rfl

end

/-! ## Kinds -/

/-- The kinds of tokens that are scanned for on their own: strings, addresses, names and numbers. -/
def Kind.isWord : Kind → Bool
  | .string | .badString | .url | .badUrl | .function | .ident | .number | .percentage
  | .dimension => true
  | _ => false

/-- The kinds of tokens that are one character with a meaning of its own. -/
def Kind.isMark : Kind → Bool
  | .colon | .semicolon | .comma | .opening _ | .closing _ => true
  | _ => false

theorem isWord_scanString (quote : Char) (cs : List Char) :
    (scanString quote cs).1.isWord = true := by
  fun_induction scanString quote cs <;> simp_all [Kind.isWord]

theorem isWord_scanUrlEnd (cs : List Char) : (scanUrlEnd cs).1.isWord = true := by
  unfold scanUrlEnd
  dsimp only
  split
  · rfl
  · split <;> rfl

theorem isWord_scanUrl (cs : List Char) : (scanUrl cs).1.isWord = true := by
  fun_induction scanUrl cs with
  | case3 c cs hc hspace => exact isWord_scanUrlEnd (c :: cs)
  | case6 c cs hc hspace hbarred hescape hnewline n kind m hrest ih => rwa [hrest] at ih
  | case7 c cs hc hspace hbarred hescape kind m hrest ih => rwa [hrest] at ih
  | _ => rfl

theorem isWord_scanIdent (cs : List Char) : (scanIdent cs).1.isWord = true := by
  unfold scanIdent
  dsimp only
  split
  · split
    · exact isWord_scanUrl _
    · rfl
  · rfl

theorem isWord_scanUnit (n : Nat) (cs : List Char) : (scanUnit n cs).1.isWord = true := by
  rw [scanUnit_eq]
  split
  · rfl
  · split <;> rfl

/-- What the kind of a token says about the character it starts with and about its length. -/
structure Shape (c : Char) (scanned : Kind × Nat) : Prop where
  mark : scanned.1.isMark = true → scanned = (singleKind c, 0)
  keyword : scanned.1 = .atKeyword → c = '@'

theorem Kind.isMark_of_isWord {kind : Kind} (h : kind.isWord = true) : kind.isMark = false := by
  cases kind <;> first | rfl | cases h

theorem shape_of_isWord {c : Char} {scanned : Kind × Nat} (h : scanned.1.isWord = true) :
    Shape c scanned := by
  constructor
  · intro hmark
    rw [Kind.isMark_of_isWord h] at hmark
    cases hmark
  · intro hat
    rw [hat] at h
    cases h

theorem singleKind_ne_atKeyword (c : Char) : singleKind c ≠ .atKeyword := by
  unfold singleKind
  split <;> decide

theorem shape_scan (c : Char) (cs : List Char) : Shape c (scan c cs) := by
  have other : ∀ {k : Kind} {n : Nat}, k.isMark = false → k ≠ .atKeyword → Shape c (k, n) :=
    fun hmark hat => ⟨fun h => absurd h (by simp [hmark]), fun h => absurd h hat⟩
  unfold scan
  dsimp only
  refine iteInduction (fun _ => other rfl (by decide)) fun _ => ?_
  refine iteInduction (fun _ => shape_of_isWord (isWord_scanString _ _)) fun _ => ?_
  refine iteInduction (fun _ => ?_) fun _ => ?_
  · exact iteInduction (fun _ => other rfl (by decide)) fun _ => other rfl (by decide)
  refine iteInduction (fun hat => ?_) fun _ => ?_
  · have hc : c = '@' := beq_iff_eq.1 hat
    exact iteInduction (fun _ => ⟨fun h => absurd h Bool.false_ne_true, fun _ => hc⟩) fun _ =>
      other rfl (by decide)
  refine iteInduction (fun _ => other rfl (by decide)) fun _ => ?_
  refine iteInduction (fun _ => shape_of_isWord (isWord_scanUnit _ _)) fun _ => ?_
  refine iteInduction (fun _ => other rfl (by decide)) fun _ => ?_
  refine iteInduction (fun _ => other rfl (by decide)) fun _ => ?_
  refine iteInduction (fun _ => shape_of_isWord (isWord_scanIdent _)) fun _ => ?_
  refine iteInduction (fun _ => other rfl (by decide)) fun _ => ?_
  exact ⟨fun _ => rfl, fun h => absurd h (singleKind_ne_atKeyword c)⟩

/-- The kinds of the tokens of a text say what they look like. -/
theorem exists_shape_of_mem_lex {loc : Location} {cs : List Char} {t : Token} (h : t ∈ lex loc cs) :
    ∃ c n, ∃ rest : List Char, t.text = c :: rest.take n ∧ Shape c (t.kind, n) := by
  revert h
  fun_induction lex loc cs with
  | case1 =>
    intro h
    cases h
  | case2 loc c cs kind n hscan text =>
    rename_i ih
    intro h
    rcases List.mem_cons.1 h with rfl | h
    · exact ⟨c, n, cs, rfl, hscan ▸ shape_scan c cs⟩
    · exact ih h

theorem exists_singleKind_of_isMark {loc : Location} {cs : List Char} {t : Token}
    (h : t ∈ lex loc cs) (hmark : t.kind.isMark = true) :
    ∃ c, t.text = [c] ∧ t.kind = singleKind c := by
  obtain ⟨c, n, rest, htext, hshape⟩ := exists_shape_of_mem_lex h
  obtain ⟨hkind, rfl⟩ := Prod.mk.inj (hshape.mark hmark)
  exact ⟨c, htext, hkind⟩

/-- A semicolon is written as one. -/
theorem text_of_semicolon {loc : Location} {cs : List Char} {t : Token} (h : t ∈ lex loc cs)
    (hkind : t.kind = .semicolon) : t.text = [';'] := by
  obtain ⟨c, htext, hsingle⟩ := exists_singleKind_of_isMark h (by rw [hkind]; rfl)
  rw [hkind] at hsingle
  unfold singleKind at hsingle
  split at hsingle <;> first | exact htext | cases hsingle

/-- A closing curly bracket is written as one. -/
theorem text_of_closingCurly {loc : Location} {cs : List Char} {t : Token} (h : t ∈ lex loc cs)
    (hkind : t.kind = .closing .curly) : t.text = ['\x7d'] := by
  obtain ⟨c, htext, hsingle⟩ := exists_singleKind_of_isMark h (by rw [hkind]; rfl)
  rw [hkind] at hsingle
  unfold singleKind at hsingle
  split at hsingle <;> first | exact htext | cases hsingle

/-- An at-keyword starts with its mark. -/
theorem head?_text_of_atKeyword {loc : Location} {cs : List Char} {t : Token} (h : t ∈ lex loc cs)
    (hkind : t.kind = .atKeyword) : t.text.head? = some '@' := by
  obtain ⟨c, n, rest, htext, hshape⟩ := exists_shape_of_mem_lex h
  rw [htext, hshape.keyword hkind]
  rfl

end Restyle.Css.Token
