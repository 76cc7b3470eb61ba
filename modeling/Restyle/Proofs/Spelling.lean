import Restyle.Proofs.Inert
import Restyle.Proofs.Letters

/-!
# What texts spell

A text spells a row of components if these are what it makes wherever it stands in front of another
text.  A text that ends in a mark of its own, such as a semicolon, a closed block or a closed comment,
spells something; one that ends in a name does not, since the name may go on behind it.

Texts that spell something are put together from inert pieces, names, keywords, white space, comments
and blocks, and one behind another they spell the one behind the other (`Spells.append`).
-/

namespace Restyle.Css

namespace Token

/-! ## Names, keywords, comments and white space -/

/-! ### Letters -/

section

variable {c : Char} (h : c.isAlpha = true)

include h

theorem ne_of_isAlpha {d : Char} (hd : d.isAlpha = false) : c ≠ d := by
  rintro rfl
  rw [hd] at h
  cases h

theorem isSpace_of_isAlpha : isSpace c = false :=
  isSpace_of_not_mem (not_mem_of_class (by decide) h)

theorem isQuote_of_isAlpha : isQuote c = false := by
  have hout : c ∉ actives := not_mem_of_class (by decide) h
  rw [Bool.eq_false_iff]
  intro hquote
  exact hout (mem_actives (by rw [isActive, hquote, Bool.true_or]))

/-- No number starts with a letter. -/
theorem numberLength_of_isAlpha (cs : List Char) : numberLength (c :: cs) = 0 := by
  have hne : ∀ {d : Char}, d.isAlpha = false → c ≠ d := ne_of_isAlpha h
  have hsign : Number.signLength (c :: cs) = 0 := by
    rw [signLength_cons, if_neg (not_or.2 ⟨hne rfl, hne rfl⟩)]
  have hdigits : Number.digitsLength (c :: cs) = 0 := by
    rw [Number.digitsLength, List.takeWhile_cons, Text.isDigit_of_isAlpha h]
    rfl
  have hfraction : fractionLength (c :: cs) = 0 := by
    rw [fractionLength_cons, if_neg fun hpoint => hne rfl hpoint.1]
  unfold numberLength
  simp only [hsign, List.drop_zero, hdigits, hfraction, Nat.add_zero, if_true]

end

/-! ### Names -/

/-- A name without escapes. -/
structure IsName (cs : List Char) : Prop where
  start : startsIdent cs = true
  chars : ∀ c ∈ cs, isNameChar c = true

theorem ne_backslash_of_isNameChar {c : Char} (h : isNameChar c = true) : c ≠ '\\' := by
  rintro rfl
  exact absurd h (by decide)

theorem nameLength_append {cs : List Char} (h : ∀ c ∈ cs, isNameChar c = true) {x : Char}
    (hx : isNameChar x = false) (hbackslash : x ≠ '\\') (s : List Char) :
    nameLength (cs ++ x :: s) = cs.length := by
  induction cs with
  | nil => simp [nameLength, hx, hbackslash]
  | cons c cs ih =>
    have hc := h c List.mem_cons_self
    have hcs := ih fun d hd => h d (List.mem_cons_of_mem _ hd)
    simp only [List.cons_append, nameLength, beq_iff_eq, ne_backslash_of_isNameChar hc, if_false, hc,
      if_true, hcs, List.length_cons]
    omega

theorem startsIdent_append {cs : List Char} (h : IsName cs) (s : List Char) :
    startsIdent (cs ++ s) = true := by
  have hstart := h.start
  cases cs with
  | nil => cases hstart
  | cons c cs =>
    have hc := ne_backslash_of_isNameChar (h.chars c List.mem_cons_self)
    rw [List.cons_append, startsIdent_cons, if_neg hc]
    rw [startsIdent_cons, if_neg hc] at hstart
    cases cs with
    | nil =>
      split at hstart
      · cases hstart
      · next hminus => rwa [if_neg hminus]
    | cons d cs => exact hstart

section

variable {name : List Char} (h : IsName name) {x : Char} (hx : isNameChar x = false)
  (hbackslash : x ≠ '\\')

include h hx hbackslash

theorem row_keyword (s : List Char) :
    row ('@' :: name ++ x :: s) = ⟨.atKeyword, '@' :: name, .start⟩ :: row (x :: s) := by
  have hlength := nameLength_append h.chars hx hbackslash s
  have hstarts := startsIdent_append h (x :: s)
  have hscan : scan '@' (name ++ x :: s) = (.atKeyword, name.length) := by
    simp [scan, hstarts, hlength, isSpace, isNewline, isQuote]
  rw [List.cons_append, row_cons_of_scan hscan, List.take_left, List.drop_left]

/-- A name that starts with a letter is an identifier unless a round bracket follows. -/
theorem row_name {c : Char} (hc : name.head? = some c) (halpha : c.isAlpha = true) (hround : x ≠ '(')
    (s : List Char) :
    row (name ++ x :: s) = ⟨.ident, name, .start⟩ :: row (x :: s) := by
  obtain ⟨cs, rfl⟩ := List.head?_eq_some_iff.1 hc
  have hlength := nameLength_append h.chars hx hbackslash s
  have hstarts := startsIdent_append h (x :: s)
  have hnumber := numberLength_of_isAlpha halpha (cs ++ x :: s)
  have hident : scanIdent (c :: cs ++ x :: s) = (.ident, cs.length + 1) := by
    rw [scanIdent_of_head?_ne, hlength, List.length_cons]
    rw [hlength, List.drop_left]
    simpa using hround
  have hne : ∀ {d : Char}, d.isAlpha = false → (c == d) = false := fun hd =>
    beq_false_of_ne (ne_of_isAlpha halpha hd)
  have hscan : scan c (cs ++ x :: s) = (.ident, cs.length) := by
    rw [List.cons_append] at hstarts hident
    unfold scan
    dsimp only
    rw [isSpace_of_isAlpha halpha, isQuote_of_isAlpha halpha, hne rfl, hne rfl, hne rfl, hnumber,
      hne rfl, hne rfl, hstarts, hident]
    rfl
  rw [List.cons_append, row_cons_of_scan hscan, List.take_left, List.drop_left]

end

/-- A comment is one token up to the first `*/` in it. -/
theorem commentLength_append {body : List Char} (h : ¬commentEnd <:+: body) (s : List Char) :
    commentLength (body ++ commentEnd ++ s) = body.length + 2 := by
  induction body with
  | nil => rfl
  | cons c body ih =>
    have hbody : ¬commentEnd <:+: body := fun hin => h (hin.trans (List.suffix_cons c body).isInfix)
    have hopen : ∀ tail, c = '*' → body ++ commentEnd ++ s = '/' :: tail → False := by
      rintro tail rfl heq
      cases body with
      | nil => cases heq
      | cons d body =>
        obtain rfl := (List.cons.inj heq).1
        exact h ⟨[], body, rfl⟩
    rw [List.cons_append, List.cons_append, commentLength.eq_3 _ _ hopen, ih hbody, List.length_cons]
    omega

theorem scan_comment (cs : List Char) : scan '/' ('*' :: cs) = (.comment, 1 + commentLength cs) :=
  rfl

theorem row_comment {body : List Char} (h : ¬commentEnd <:+: body) (s : List Char) :
    row ('/' :: '*' :: body ++ commentEnd ++ s) =
      ⟨.comment, '/' :: '*' :: body ++ commentEnd, .start⟩ :: row s := by
  have hlength := commentLength_append h s
  have hscan : scan '/' ('*' :: (body ++ commentEnd ++ s)) =
      (.comment, ('*' :: (body ++ commentEnd)).length) := by
    rw [scan_comment, hlength, List.length_cons, List.length_append]
    exact congrArg _ (Nat.add_comm _ _)
  have hcut : '*' :: (body ++ commentEnd ++ s) = '*' :: (body ++ commentEnd) ++ s := rfl
  simp only [List.cons_append]
  rw [row_cons_of_scan hscan, hcut, List.take_left, List.drop_left]

theorem row_space {blanks : List Char} (hblanks : ∀ c ∈ blanks, isSpace c = true) (hne : blanks ≠ [])
    {x : Char} (hx : isSpace x = false) (s : List Char) :
    row (blanks ++ x :: s) = ⟨.whiteSpace, blanks, .start⟩ :: row (x :: s) := by
  obtain ⟨c, cs, rfl⟩ := List.exists_cons_of_ne_nil hne
  have hlength : spaceLength (cs ++ x :: s) = cs.length := by
    rw [spaceLength, List.takeWhile_append_of_pos fun d hd => hblanks d (List.mem_cons_of_mem _ hd),
      List.takeWhile_cons, hx]
    simp
  have hscan : scan c (cs ++ x :: s) = (.whiteSpace, cs.length) := by
    rw [scan, if_pos (hblanks c List.mem_cons_self), hlength]
  rw [List.cons_append, row_cons_of_scan hscan, List.take_left, List.drop_left]

end Token

namespace Component

/-! ## Settled tokens -/

/-- Tokens that nest to finished components, whatever has been read before them. -/
def Settles (ts : List Token) (cs : List Component) : Prop :=
  ∀ n : Nesting, ts.foldl Nesting.push n = ⟨cs.reverse ++ n.level, n.pending⟩

theorem settles_nil : Settles [] [] := fun _ => rfl

theorem Settles.append {ts us : List Token} {cs ds : List Component} (h : Settles ts cs)
    (h' : Settles us ds) : Settles (ts ++ us) (cs ++ ds) := by
  intro n
  rw [List.foldl_append, h, h', List.reverse_append, List.append_assoc]

theorem settles_leaf {t : Token} (hopens : t.kind.opens? = none) (hcloses : t.kind.closes? = none) :
    Settles [t] [.leaf t] := by
  rintro ⟨level, _ | ⟨p, ps⟩⟩
  · simp [Nesting.push, hopens]
  · simp [Nesting.push, hopens, hcloses]

theorem Settles.block {opener closer : Token} {b : Bracket} {ts : List Token} {cs : List Component}
    (hopens : opener.kind.opens? = some b) (hkind : closer.kind.opens? = none)
    (hcloses : closer.kind.closes? = some b) (h : Settles ts cs) :
    Settles (opener :: ts ++ [closer]) [.block opener cs (some closer)] := by
  intro n
  have hopen : n.push opener = ⟨[], ⟨opener, n.level⟩ :: n.pending⟩ := by
    unfold Nesting.push
    rw [hopens]
  rw [List.cons_append, List.foldl_cons, List.foldl_append, hopen, h]
  simp [Nesting.push, hopens, hkind, hcloses]

theorem Settles.ofTokens_eq {ts : List Token} {cs : List Component} (h : Settles ts cs) :
    ofTokens ts = cs := by
  rw [ofTokens, h]
  simp [Nesting.finish]

/-- The components of an inert text. -/
def leaves (cs : List Char) : List Component :=
  (Token.row cs).map leaf

theorem opens?_of_isInert {kind : Token.Kind} (h : kind.isInert = true) : kind.opens? = none := by
  cases kind <;> first | rfl | cases h

theorem closes?_of_isInert {kind : Token.Kind} (h : kind.isInert = true) : kind.closes? = none := by
  cases kind <;> first | rfl | cases h

theorem settles_leaves {cs : List Char} (h : Token.Inert cs) :
    Settles (Token.row cs) (leaves cs) := by
  have hkinds := fun t ht => Token.isInert_of_mem_row h (t := t) ht
  unfold leaves
  generalize Token.row cs = ts at hkinds
  induction ts with
  | nil => exact settles_nil
  | cons t ts ih =>
    have ht := hkinds t List.mem_cons_self
    exact (settles_leaf (opens?_of_isInert ht) (closes?_of_isInert ht)).append
      (ih fun u hu => hkinds u (List.mem_cons_of_mem _ hu))

/-! ## What a text spells -/

/-- The components that a text makes in front of any other. -/
def Spells (w : List Char) (cs : List Component) : Prop :=
  ∃ ts, (∀ s, Token.row (w ++ s) = ts ++ Token.row s) ∧ Settles ts cs

theorem spells_nil : Spells [] [] :=
  ⟨[], fun _ => rfl, settles_nil⟩

theorem Spells.append {v w : List Char} {cs ds : List Component} (h : Spells v cs)
    (h' : Spells w ds) : Spells (v ++ w) (cs ++ ds) := by
  obtain ⟨ts, hrow, hsettles⟩ := h
  obtain ⟨us, hrow', hsettles'⟩ := h'
  refine ⟨ts ++ us, fun s => ?_, hsettles.append hsettles'⟩
  rw [List.append_assoc, hrow, hrow', List.append_assoc]

/-- The components of a text that spells something, up to places. -/
theorem Spells.ofText_eq {w : List Char} {cs : List Component} (h : Spells w cs) (loc : Location) :
    (ofText loc w).map unplaced = cs := by
  obtain ⟨ts, hrow, hsettles⟩ := h
  have hwhole : Token.row w = ts := by
    have := hrow []
    rwa [List.append_nil, Token.row_nil, List.append_nil] at this
  rw [unplaced_ofText loc .start, ofText, unplaced_ofTokens]
  exact (congrArg ofTokens hwhole).trans hsettles.ofTokens_eq

/-- A token in front of a text that spells something. -/
theorem Spells.cons {v w : List Char} {t : Token} {cs : List Component} (h : Spells w cs)
    (hopens : t.kind.opens? = none) (hcloses : t.kind.closes? = none)
    (hrow : ∀ s, Token.row (v ++ w ++ s) = t :: Token.row (w ++ s)) :
    Spells (v ++ w) (.leaf t :: cs) := by
  obtain ⟨ts, hrow', hsettles⟩ := h
  refine ⟨t :: ts, fun s => ?_, (settles_leaf hopens hcloses).append hsettles⟩
  rw [hrow, hrow']
  rfl

section

variable {x : Char} (hx : Token.Stop x) {w : List Char} {cs : List Component}

include hx

theorem spells_mark (hopens : (Token.singleKind x).opens? = none)
    (hcloses : (Token.singleKind x).closes? = none) :
    Spells [x] [.leaf ⟨Token.singleKind x, [x], .start⟩] :=
  ⟨[_], Token.row_of_stop hx, settles_leaf hopens hcloses⟩

/-- An inert piece in front of a stop. -/
theorem Spells.inert {v : List Char} (hv : Token.Inert v) (h : Spells (x :: w) cs) :
    Spells (v ++ x :: w) (leaves v ++ cs) := by
  obtain ⟨ts, hrow, hsettles⟩ := h
  refine ⟨Token.row v ++ ts, fun s => ?_, (settles_leaves hv).append hsettles⟩
  rw [List.append_assoc, List.cons_append, Token.row_append_of_inert hx hv, ← List.cons_append, hrow,
    List.append_assoc]

end

/-- A block in curly brackets with given contents. -/
def curly (cs : List Component) : Component :=
  .block ⟨.opening .curly, ['\x7b'], .start⟩ cs (some ⟨.closing .curly, ['\x7d'], .start⟩)

/-- The components that a text makes as the inside of a block in curly brackets. -/
def SpellsInside (w : List Char) (cs : List Component) : Prop :=
  ∃ ts, (∀ s, Token.row (w ++ '\x7d' :: s) = ts ++ Token.row ('\x7d' :: s)) ∧ Settles ts cs

theorem Spells.append_inside {v w : List Char} {cs ds : List Component} (h : Spells v cs)
    (h' : SpellsInside w ds) : SpellsInside (v ++ w) (cs ++ ds) := by
  obtain ⟨ts, hrow, hsettles⟩ := h
  obtain ⟨us, hrow', hsettles'⟩ := h'
  refine ⟨ts ++ us, fun s => ?_, hsettles.append hsettles'⟩
  rw [List.append_assoc, hrow, hrow', List.append_assoc]

theorem Spells.inside {w : List Char} {cs : List Component} (h : Spells w cs) :
    SpellsInside w cs := by
  obtain ⟨ts, hrow, hsettles⟩ := h
  exact ⟨ts, fun s => hrow _, hsettles⟩

theorem spellsInside_space {blanks : List Char} (hblanks : ∀ c ∈ blanks, isSpace c = true)
    (hne : blanks ≠ []) : SpellsInside blanks [.leaf ⟨.whiteSpace, blanks, .start⟩] :=
  ⟨[_], Token.row_space hblanks hne Token.stop_closingCurly.space, settles_leaf rfl rfl⟩

theorem SpellsInside.curly {w : List Char} {cs : List Component} (h : SpellsInside w cs) :
    Spells ('\x7b' :: w ++ ['\x7d']) [curly cs] := by
  obtain ⟨ts, hrow, hsettles⟩ := h
  refine ⟨_, fun s => ?_, hsettles.block (b := .curly) rfl rfl rfl⟩
  rw [List.cons_append, List.cons_append, List.append_assoc, List.singleton_append,
    Token.row_of_stop Token.stop_openingCurly, hrow, Token.row_of_stop Token.stop_closingCurly]
  simp [Token.singleKind]

theorem spells_comment {body : List Char} (h : ¬Token.commentEnd <:+: body) :
    Spells ('/' :: '*' :: body ++ Token.commentEnd)
      [.leaf ⟨.comment, '/' :: '*' :: body ++ Token.commentEnd, .start⟩] :=
  ⟨[_], Token.row_comment h, settles_leaf rfl rfl⟩

section

variable {w : List Char} {x : Char} {cs : List Component} (h : Spells (x :: w) cs)

include h

theorem Spells.keyword {name : List Char} (hname : Token.IsName name) (hx : isNameChar x = false)
    (hbackslash : x ≠ '\\') :
    Spells ('@' :: name ++ x :: w) (.leaf ⟨.atKeyword, '@' :: name, .start⟩ :: cs) := by
  refine h.cons rfl rfl fun s => ?_
  rw [List.append_assoc, List.cons_append]
  exact Token.row_keyword hname hx hbackslash (w ++ s)

theorem Spells.name {name : List Char} {c : Char} (hname : Token.IsName name)
    (hc : name.head? = some c) (halpha : c.isAlpha = true) (hx : isNameChar x = false)
    (hbackslash : x ≠ '\\') (hround : x ≠ '(') :
    Spells (name ++ x :: w) (.leaf ⟨.ident, name, .start⟩ :: cs) := by
  refine h.cons rfl rfl fun s => ?_
  rw [List.append_assoc, List.cons_append]
  exact Token.row_name hname hx hbackslash hc halpha hround (w ++ s)

theorem Spells.space {blanks : List Char} (hblanks : ∀ c ∈ blanks, isSpace c = true)
    (hne : blanks ≠ []) (hx : isSpace x = false) :
    Spells (blanks ++ x :: w) (.leaf ⟨.whiteSpace, blanks, .start⟩ :: cs) := by
  refine h.cons rfl rfl fun s => ?_
  rw [List.append_assoc, List.cons_append]
  exact Token.row_space hblanks hne hx (w ++ s)

end

end Component

end Restyle.Css
