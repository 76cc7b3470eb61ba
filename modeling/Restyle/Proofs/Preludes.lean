import Restyle.Proofs.ScannedDeclarations

/-!
# Preludes token by token

A reader that knows tokens only collects the text in front of a block on its way there.  It reads the
tokens up to a kind that ends the text (`Cursor.pieces`), leaves out comments, takes a block as a whole and
may start a new piece at a comma.  Then it asks whether it has read all there was, gives up all text if
not, and goes on to the end (`Cursor.collect`).

It always has, and so what it gives is the text of the tokens that it has passed over, wherever no block
has just been opened (`Cursor.collects_exactly`).  Behind an opening bracket it is not: the slice of the
first token starts where the reader stands, and that is inside the block (`Cursor.prelude_behind_lead`,
`Cursor.selectors_behind_lead`).  `Cursor.preludes_exact_iff` says where this makes a difference.

Where a reader of components looks for the text in front of a block, it finds the same
(`Cursor.prelude_level`, `Cursor.selectors_level`).
-/

namespace Restyle.Css

open Component

/-- What is left behind open blocks is a part of what stands inside. -/
theorem passOver_suffix (bs : List Bracket) (ts : List Token) : passOver bs ts <:+ ts := by
  fun_induction passOver bs ts with
  | case1 ts => exact List.suffix_rfl
  | case2 => exact List.suffix_rfl
  | case3 b bs t ts _ ih | case4 b bs t ts _ inner _ ih | case5 b bs t ts _ _ ih =>
    exact ih.trans (List.suffix_cons t ts)

/-- To drain the inside of a block and to go on behind what closes it is to pass over the block. -/
theorem passOver_endOfRow (b : Bracket) (bs : List Bracket) (ts : List Token) :
    passOver [b] (Cursor.endOfRow (some b) bs ts) = passOver (bs ++ [b]) ts := by
  fun_induction Cursor.endOfRow (some b) bs ts with
  | case1 bs => cases bs <;> rfl
  | case2 t ts hbarrier => rfl
  | case3 t ts hbarrier ih =>
    have hcloses : ¬t.kind.closes? = some b := by
      intro hcloses
      rw [Token.isBarrier, hcloses] at hbarrier
      exact hbarrier (beq_self_eq_true _)
    rw [ih, List.nil_append, passOver, if_neg hcloses]
    cases t.kind.opens? <;> rfl
  | case4 c bs t ts hcloses ih => rw [ih, List.cons_append, passOver, if_pos hcloses]
  | case5 c bs t ts hcloses inner hopens ih =>
    rw [ih, List.cons_append, List.cons_append, passOver, if_neg hcloses, hopens]
  | case6 c bs t ts hcloses hopens ih =>
    rw [ih, List.cons_append, passOver, if_neg hcloses, hopens]

namespace Cursor

variable {c d : Cursor} {t : Token}

/-! ## One token -/

theorem settle_suffix (c : Cursor) : c.settle.rest <:+ c.rest :=
  passOver_suffix _ _

theorem settle_of_opened (h : c.opened = none) : c.settle = c := by
  obtain ⟨rest, opened, barrier⟩ := c
  obtain rfl : opened = none := h
  rw [settle, Option.toList_none, passOver_nil]

theorem settle_settle (c : Cursor) : c.settle.settle = c.settle :=
  settle_of_opened rfl

theorem next?_settle (c : Cursor) : c.settle.next? = c.next? := by
  unfold next?
  rw [settle_settle]
  rfl

theorem next?_eq_some_iff : c.next? = some (t, d) ↔
    c.settle.rest = t :: d.rest ∧ t.isBarrier c.barrier = false ∧ d.opened = t.kind.opens? ∧
      d.barrier = c.barrier := by
  obtain ⟨rest, opened, barrier⟩ := d
  unfold next?
  cases c.settle.rest with
  | nil =>
    constructor
    · exact nofun
    · rintro ⟨h, -⟩
      cases h
  | cons u us =>
    cases hbarrier : u.isBarrier c.barrier with
    | true =>
      constructor
      · intro h
        simp [hbarrier] at h
      · rintro ⟨h, hopen, -⟩
        obtain ⟨rfl, -⟩ := List.cons.inj h
        rw [hbarrier] at hopen
        cases hopen
    | false =>
      simp only [hbarrier, Bool.false_eq_true, if_false, Option.some.injEq, Prod.mk.injEq,
        Cursor.mk.injEq, List.cons.injEq]
      constructor
      · rintro ⟨rfl, rfl, rfl, rfl⟩
        exact ⟨⟨rfl, rfl⟩, hbarrier, rfl, rfl⟩
      · rintro ⟨⟨rfl, rfl⟩, -, rfl, rfl⟩
        exact ⟨rfl, rfl, rfl, rfl⟩

theorem next?_eq_none_iff : c.next? = none ↔
    ∀ t ∈ c.settle.rest.head?, t.isBarrier c.barrier = true := by
  unfold next?
  cases c.settle.rest with
  | nil => simp
  | cons t ts => cases hbarrier : t.isBarrier c.barrier <;> simp [hbarrier]

theorem suffix_of_next? (h : c.next? = some (t, d)) : t :: d.rest <:+ c.rest := by
  rw [← (next?_eq_some_iff.1 h).1]
  exact c.settle_suffix

theorem length_of_next? (h : c.next? = some (t, d)) : d.rest.length < c.rest.length :=
  (suffix_of_next? h).length_le

/-! ## The scan -/

/-- The next token, unless it is of a kind that ends what is read. -/
def nextBefore? (ends : Token.Kind → Bool) (c : Cursor) : Option (Token × Cursor) :=
  c.next?.filter fun step => !ends step.1.kind

theorem nextBefore?_eq_some_iff {ends : Token.Kind → Bool} :
    c.nextBefore? ends = some (t, d) ↔ c.next? = some (t, d) ∧ ends t.kind = false := by
  simp [nextBefore?, Option.filter_eq_some_iff]

theorem nextBefore?_eq_none_iff {ends : Token.Kind → Bool} : c.nextBefore? ends = none ↔
    ∀ t ∈ c.settle.rest.head?, (ends t.kind || t.isBarrier c.barrier) = true := by
  unfold nextBefore?
  cases hnext : c.next? with
  | none =>
    rw [next?_eq_none_iff] at hnext
    simp only [Option.filter_none, true_iff]
    intro t ht
    rw [hnext t ht, Bool.or_true]
  | some step =>
    obtain ⟨t, d⟩ := step
    obtain ⟨hrest, hbarrier, -⟩ := next?_eq_some_iff.1 hnext
    rw [hrest]
    simp [Option.filter_some, hbarrier]

/-- Drains the inside of the block that has been opened and goes on behind what closes it. -/
def skipContents (c : Cursor) : Cursor :=
  { c with
    rest := c.opened.elim c.rest fun b => passOver [b] (Cursor.mk c.rest none (some b)).drain.rest
    opened := none }

theorem skipContents_eq (c : Cursor) : c.skipContents = c.settle := by
  obtain ⟨rest, opened, barrier⟩ := c
  cases opened with
  | none => simp [skipContents, settle]
  | some b => exact congrArg (Cursor.mk · none barrier) (passOver_endOfRow b [] rest)

/-- Goes on to the next token of a kind that ends what is read. -/
def toEnd (ends : Token.Kind → Bool) (c : Cursor) : Cursor :=
  match _h : c.nextBefore? ends with
  | none => c.settle
  | some (_, d) => d.toEnd ends
termination_by c.rest.length
decreasing_by exact length_of_next? (nextBefore?_eq_some_iff.1 _h).1

/-- Collects the text up to an end.  It starts a new piece at each comma, if it is to split; `current` is
the text of the piece that has been started. -/
def pieces (ends : Token.Kind → Bool) (split : Bool) (current : List Char) (c : Cursor) :
    List (List Char) × Cursor :=
  match _h : c.nextBefore? ends with
  | none => ([current], c.settle)
  | some (t, d) =>
    if t.kind = .comment then d.pieces ends split current
    else if split = true ∧ t.kind = .comma then
      let others := d.pieces ends split []
      (current :: others.1, others.2)
    else
      let behind := d.skipContents
      behind.pieces ends split (current ++ Scan.between c.rest behind.rest)
termination_by c.rest.length
decreasing_by
  · exact length_of_next? (nextBefore?_eq_some_iff.1 _h).1
  · exact length_of_next? (nextBefore?_eq_some_iff.1 _h).1
  · rw [skipContents_eq]
    exact Nat.lt_of_le_of_lt d.settle_suffix.length_le
      (length_of_next? (nextBefore?_eq_some_iff.1 _h).1)

/-- Collects the text up to an end and goes there.  There is no text if anything but white space and
comments has been left in front of the end. -/
def collect (ends : Token.Kind → Bool) (split : Bool) (c : Cursor) : List String × Cursor :=
  let (texts, d) := c.pieces ends split []
  (if (d.skipBlank.nextBefore? ends).isNone then
      texts.map fun text => String.ofList (Text.trim text)
    else [],
    d.toEnd ends)

/-- What ends selectors. -/
def endsSelectors (kind : Token.Kind) : Bool := kind == .opening .curly

/-- What ends the prelude of an at-rule. -/
def endsPrelude (kind : Token.Kind) : Bool := kind == .opening .curly || kind == .semicolon

/-- The text up to the next block in curly brackets or semicolon. -/
def prelude (c : Cursor) : String × Cursor :=
  let collected := c.collect endsPrelude false
  (String.join collected.1, collected.2)

/-- The texts between the commas up to the next block in curly brackets. -/
def selectors (c : Cursor) : List String × Cursor :=
  c.collect endsSelectors true

end Cursor

/-! ## Components by their first token -/

namespace Component

/-- Whether a component is the closing bracket that ends a row. -/
def isBarrier (barrier : Option Bracket) : Component → Bool
  | .leaf t => t.isBarrier barrier
  | .block _ _ _ => false

/-- What `q` asks of a component is what `p` asks of its first token. -/
structure OfFirst (p : Token → Bool) (q : Component → Bool) : Prop where
  leaf : ∀ t, t.kind.opens? = none → q (.leaf t) = p t
  block : ∀ t b contents closer, t.kind.opens? = some b → q (.block t contents closer) = p t

namespace OfFirst

variable {p p' : Token → Bool} {q q' : Component → Bool}

theorem component (h : OfFirst p q) (t : Token) (ts : List Token) :
    q (Scan.component t ts) = p t := by
  cases hopens : t.kind.opens? with
  | none => rw [Scan.component_of_opens hopens, h.leaf t hopens]
  | some b =>
    rw [Scan.component, hopens]
    exact h.block t b _ _ hopens

theorem or (h : OfFirst p q) (h' : OfFirst p' q') :
    OfFirst (fun t => p t || p' t) (fun c => q c || q' c) where
  leaf t hopens := congrArg₂ Bool.or (h.leaf t hopens) (h'.leaf t hopens)
  block t b contents closer hopens :=
    congrArg₂ Bool.or (h.block t b contents closer hopens) (h'.block t b contents closer hopens)

theorem isLeaf {kind : Token.Kind} (hkind : kind.opens? = none) :
    OfFirst (·.kind == kind) (Component.isLeaf kind) where
  leaf _ _ := rfl
  block _ _ _ _ hopens := (beq_eq_false_iff_ne.2 (Token.Kind.ne_of_opens? hopens hkind)).symm

theorem isCurly : OfFirst (fun t => Cursor.endsSelectors t.kind) Component.isCurly where
  leaf _ hopens := (beq_eq_false_iff_ne.2 (Token.Kind.ne_of_opens? rfl hopens).symm).symm
  block _ _ _ _ _ := rfl

theorem isEnd : OfFirst (fun t => Cursor.endsPrelude t.kind) (fun c => c.isCurly || c.isSemicolon) :=
  isCurly.or (isLeaf rfl)

theorem isBarrier (barrier : Option Bracket) :
    OfFirst (·.isBarrier barrier) (Component.isBarrier barrier) where
  leaf _ _ := rfl
  block t b _ _ hopens := by
    have hcloses : t.kind.closes? = none := by
      cases hcloses : t.kind.closes? with
      | none => rfl
      | some c =>
        rw [Token.opens?_of_closes? hcloses] at hopens
        cases hopens
    rw [Token.isBarrier, hcloses]
    rfl

end OfFirst

/-- The text of a row of components without the comments among them, with `lead` in front of the first
one unless that is a comment. -/
def textBehind (lead : List Char) : List Component → List Char
  | [] => []
  | c :: cs => if c.isComment then plainText cs else lead ++ plainText (c :: cs)

/-- The texts of several rows, with `lead` in front of the first one. -/
def textsBehind (lead : List Char) : List (List Component) → List (List Char)
  | [] => []
  | row :: rows => textBehind lead row :: rows.map plainText

theorem textBehind_nil (cs : List Component) : textBehind [] cs = plainText cs := by
  cases cs with
  | nil => rfl
  | cons c cs =>
    rw [textBehind]
    split
    · next h => rw [plainText_comment h]
    · rfl

theorem textsBehind_nil (rows : List (List Component)) : textsBehind [] rows = rows.map plainText := by
  cases rows with
  | nil => rfl
  | cons row rows => rw [textsBehind, textBehind_nil, List.map_cons]

end Component

namespace Cursor

variable {c d : Cursor} {t : Token}

/-! ## The level of a cursor -/

/-- The components from a cursor to the end of its row. -/
def level (c : Cursor) : List Component :=
  (ofTokens c.settle.rest).takeWhile (!·.isBarrier c.barrier)

theorem ofTokens_of_next? (h : c.next? = some (t, d)) :
    ofTokens c.settle.rest = Scan.component t d.rest :: ofTokens d.settle.rest := by
  obtain ⟨hrest, -, hopened, -⟩ := next?_eq_some_iff.1 h
  rw [hrest, Scan.ofTokens_cons, settle, hopened]

theorem level_of_next? (h : c.next? = some (t, d)) :
    c.level = Scan.component t d.rest :: d.level := by
  obtain ⟨-, hbarrier, -, hrow⟩ := next?_eq_some_iff.1 h
  rw [level, ofTokens_of_next? h, List.takeWhile_cons,
    (OfFirst.isBarrier c.barrier).component, hbarrier, level, hrow]
  rfl

theorem level_of_next?_eq_none (h : c.next? = none) : c.level = [] := by
  rw [next?_eq_none_iff] at h
  unfold level
  cases hrest : c.settle.rest with
  | nil => rfl
  | cons t ts =>
    rw [hrest] at h
    rw [Scan.ofTokens_cons, List.takeWhile_cons, (OfFirst.isBarrier c.barrier).component, h t rfl]
    rfl

theorem level_settle (c : Cursor) : c.settle.level = c.level := by
  rw [level, settle_settle]
  rfl

/-! ## What the scan passes over -/

section

variable {ends : Token.Kind → Bool} {q : Component → Bool}
  (hq : OfFirst (fun t => ends t.kind) q)

include hq

/-- Where a scan ends, the level ends or goes on with a component that ends what is read. -/
theorem level_of_nextBefore?_eq_none (h : c.nextBefore? ends = none) :
    c.level.takeWhile (!q ·) = [] ∧ c.level.dropWhile (!q ·) = c.level := by
  cases hnext : c.next? with
  | none =>
    rw [level_of_next?_eq_none hnext]
    exact ⟨rfl, rfl⟩
  | some step =>
    obtain ⟨t, d⟩ := step
    have hends : ends t.kind = true := by
      rw [nextBefore?, hnext, Option.filter_some] at h
      simpa using h
    have hstop : (!q (Scan.component t d.rest)) = false := by
      rw [hq.component, hends]
      rfl
    rw [level_of_next? hnext, List.takeWhile_cons, List.dropWhile_cons, hstop]
    exact ⟨rfl, rfl⟩

theorem level_of_nextBefore? (h : c.nextBefore? ends = some (t, d)) :
    c.level.takeWhile (!q ·) = Scan.component t d.rest :: d.level.takeWhile (!q ·) ∧
      c.level.dropWhile (!q ·) = d.level.dropWhile (!q ·) := by
  obtain ⟨hnext, hends⟩ := nextBefore?_eq_some_iff.1 h
  have hgoes : (!q (Scan.component t d.rest)) = true := by
    rw [hq.component, hends]
    rfl
  rw [level_of_next? hnext, List.takeWhile_cons, List.dropWhile_cons, hgoes]
  exact ⟨rfl, rfl⟩

/-- A reader that goes on to an end leaves the level from there on. -/
theorem level_toEnd (c : Cursor) : (c.toEnd ends).level = c.level.dropWhile (!q ·) := by
  fun_induction toEnd ends c with
  | case1 c h => rw [level_settle, (level_of_nextBefore?_eq_none hq h).2]
  | case2 c t d h ih => rw [ih, (level_of_nextBefore? hq h).2]

/-- A reader that goes on to an end passes over the components in front of it. -/
theorem tokensOf_toEnd (c : Cursor) :
    tokensOf (c.level.takeWhile (!q ·)) ++ (c.toEnd ends).rest = c.settle.rest := by
  fun_induction toEnd ends c with
  | case1 c h => rw [(level_of_nextBefore?_eq_none hq h).1, tokensOf_nil, List.nil_append]
  | case2 c t d h ih =>
    obtain ⟨hrest, -, hopened, -⟩ := next?_eq_some_iff.1 (nextBefore?_eq_some_iff.1 h).1
    rw [(level_of_nextBefore? hq h).1, tokensOf_cons, List.append_assoc, ih, hrest,
      ← Scan.tokens_component t d.rest, settle, hopened]

end

/-- The end is reached with no block opened, and it is one. -/
theorem toEnd_cases (ends : Token.Kind → Bool) (c : Cursor) :
    (c.toEnd ends).opened = none ∧ (c.toEnd ends).barrier = c.barrier ∧
      (c.toEnd ends).nextBefore? ends = none := by
  fun_induction toEnd ends c with
  | case1 c h =>
    refine ⟨rfl, rfl, ?_⟩
    rwa [nextBefore?, next?_settle]
  | case2 c t d h ih =>
    obtain ⟨-, -, -, hbarrier⟩ := next?_eq_some_iff.1 (nextBefore?_eq_some_iff.1 h).1
    exact ⟨ih.1, ih.2.1.trans hbarrier, ih.2.2⟩

theorem toEnd_settle (ends : Token.Kind → Bool) (c : Cursor) :
    c.settle.toEnd ends = c.toEnd ends := by
  rw [toEnd, toEnd.eq_def ends c, nextBefore?, next?_settle, settle_settle]
  rfl

/-! ## What the scan collects -/

/-- What is left, in front of the next token, of the block that has been opened. -/
def lead (c : Cursor) : List Char :=
  Scan.between c.rest c.settle.rest

theorem lead_of_opened (h : c.opened = none) : c.lead = [] := by
  have hbetween := Scan.between_append [] c.rest
  rwa [lead, settle_of_opened h]

/-- The slice of a token starts where the reader stands. -/
theorem between_of_next? (h : c.next? = some (t, d)) :
    Scan.between c.rest d.settle.rest = c.lead ++ (Scan.component t d.rest).text := by
  obtain ⟨hrest, -, hopened, -⟩ := next?_eq_some_iff.1 h
  obtain ⟨front, hfront⟩ := c.settle_suffix
  have htokens : (Scan.component t d.rest).tokens ++ d.settle.rest = c.settle.rest := by
    rw [hrest, ← Scan.tokens_component t d.rest, settle, hopened]
  rw [lead, ← hfront, Scan.between_append, ← htokens, ← List.append_assoc, Scan.between_append,
    List.flatMap_append, Component.text]

/-- The pieces that are collected are the texts of the components in front of the end, between the commas
if it is to split. -/
theorem pieces_eq {ends : Token.Kind → Bool} {q : Component → Bool}
    (hq : OfFirst (fun t => ends t.kind) q) (split : Bool) (current : List Char) (c : Cursor) :
    c.pieces ends split current =
      ((textsBehind c.lead (splitOn (split && isComma ·) (c.level.takeWhile (!q ·)))).modifyHead
        (current ++ ·), c.toEnd ends) := by
  fun_induction pieces ends split current c with
  | case1 current c h =>
    rw [(level_of_nextBefore?_eq_none hq h).1, toEnd, h]
    simp [splitOn, textsBehind, textBehind]
  | case2 current c t d h hcomment ih =>
    obtain ⟨hrest, -, hopened, -⟩ := next?_eq_some_iff.1 (nextBefore?_eq_some_iff.1 h).1
    have hopens : t.kind.opens? = none := by
      rw [hcomment]
      rfl
    have hleaf : (leaf t).isComment = true := beq_iff_eq.2 hcomment
    have hcomma : (split && (leaf t).isComma) = false := by
      rw [isComma, isLeaf, hcomment]
      exact Bool.and_false split
    rw [ih, lead_of_opened (hopened.trans hopens), textsBehind_nil, (level_of_nextBefore? hq h).1,
      Scan.component_of_opens hopens, toEnd.eq_def ends c, h]
    obtain ⟨first, others, hfirst, hsplit⟩ :=
      exists_splitOn_cons (p := fun x => split && isComma x) hcomma (d.level.takeWhile (!q ·))
    rw [hfirst, hsplit, textsBehind, textBehind, if_pos hleaf]
    rfl
  | case3 current c t d h hcomment hcomma others ih =>
    obtain ⟨hrest, -, hopened, -⟩ := next?_eq_some_iff.1 (nextBefore?_eq_some_iff.1 h).1
    obtain ⟨hsplits, hkind⟩ := hcomma
    have hopens : t.kind.opens? = none := by
      rw [hkind]
      rfl
    have hcut : (split && (leaf t).isComma) = true := by
      rw [isComma, isLeaf, hkind, hsplits]
      rfl
    have hid : ∀ rows : List (List Char), rows.modifyHead ([] ++ ·) = rows := fun rows => by
      cases rows <;> rfl
    rw [lead_of_opened (hopened.trans hopens), textsBehind_nil, hid] at ih
    rw [(level_of_nextBefore? hq h).1, Scan.component_of_opens hopens, toEnd.eq_def ends c, h, splitOn,
      if_pos hcut, textsBehind, textBehind]
    rw [List.modifyHead_cons, List.append_nil, show others = _ from ih]
  | case4 current c t d h hcomment hcomma behind ih =>
    have hnext := (nextBefore?_eq_some_iff.1 h).1
    have hbehind : behind = d.settle := d.skipContents_eq
    have hleaf : (Scan.component t d.rest).isComment = false := by
      rw [isComment, Scan.isLeaf_component rfl, beq_eq_false_iff_ne.2 hcomment]
    have hjoins : (split && (Scan.component t d.rest).isComma) = false := by
      rw [isComma, Scan.isLeaf_component rfl, Bool.and_eq_false_iff, beq_eq_false_iff_ne]
      rcases not_and_or.1 hcomma with hsplit | hkind
      · exact .inl (Bool.eq_false_iff.2 hsplit)
      · exact .inr hkind
    obtain ⟨first, others, hfirst, hsplit⟩ :=
      exists_splitOn_cons (p := fun x => split && isComma x) hjoins (d.level.takeWhile (!q ·))
    rw [ih, hbehind, lead_of_opened rfl, textsBehind_nil, level_settle, toEnd_settle,
      between_of_next? hnext, (level_of_nextBefore? hq h).1, toEnd.eq_def ends c, h, hfirst, hsplit,
      textsBehind, textBehind, if_neg (by rw [hleaf]; exact Bool.false_ne_true), plainText_cons hleaf]
    simp only [List.map_cons, List.modifyHead_cons, List.append_assoc]

/-- Where a scan ends, neither white space nor a comment is in front of it. -/
theorem skipBlank_of_nextBefore?_eq_none {ends : Token.Kind → Bool}
    (hspace : ends .whiteSpace = false) (hcomment : ends .comment = false)
    (h : c.nextBefore? ends = none) : c.skipBlank = c.settle := by
  rw [nextBefore?_eq_none_iff] at h
  unfold skipBlank
  cases hrest : c.settle.rest with
  | nil => rw [List.dropWhile_nil, ← hrest]
  | cons t ts =>
    rw [hrest] at h
    have hblank : (t.kind == .whiteSpace || t.kind == .comment) = false := by
      rcases Bool.or_eq_true_iff.1 (h t rfl) with hends | hbarrier
      · rw [Bool.or_eq_false_iff, beq_eq_false_iff_ne, beq_eq_false_iff_ne]
        constructor
        · intro hkind
          rw [hkind, hspace] at hends
          cases hends
        · intro hkind
          rw [hkind, hcomment] at hends
          cases hends
      · exact not_isBlank_of_isBarrier hbarrier
    rw [List.dropWhile_cons, hblank, if_neg Bool.false_ne_true, ← hrest]

section

variable {ends : Token.Kind → Bool} (hspace : ends .whiteSpace = false)
  (hcomment : ends .comment = false) {q : Component → Bool}
  (hq : OfFirst (fun t => ends t.kind) q)

include hspace hcomment hq

/-- Once the pieces have been collected, the next token is an end or there is none. -/
theorem nextBefore?_pieces (split : Bool) (c : Cursor) :
    (c.pieces ends split []).2.skipBlank.nextBefore? ends = none := by
  obtain ⟨-, -, hend⟩ := toEnd_cases ends c
  rw [pieces_eq hq, skipBlank_of_nextBefore?_eq_none hspace hcomment hend, nextBefore?, next?_settle]
  exact hend

/-- No text is given up. -/
theorem collect_eq (split : Bool) (c : Cursor) : c.collect ends split =
    ((textsBehind c.lead (splitOn (split && isComma ·) (c.level.takeWhile (!q ·)))).map fun text =>
      String.ofList (Text.trim text), c.toEnd ends) := by
  have hexhausted := nextBefore?_pieces hspace hcomment hq split c
  have hid : ∀ rows : List (List Char), rows.modifyHead ([] ++ ·) = rows := fun rows => by
    cases rows <;> rfl
  unfold collect
  rw [pieces_eq hq, hid] at hexhausted ⊢
  obtain ⟨hopened, -, hend⟩ := toEnd_cases ends c
  dsimp only
  rw [hexhausted, Option.isNone_none, if_pos rfl, toEnd.eq_def, hend]
  exact congrArg (Prod.mk _) (settle_of_opened hopened)

/-- Unless it is to be split, all that is collected is one text. -/
theorem collect_whole (c : Cursor) : c.collect ends false =
    ([String.ofList (Text.trim (textBehind c.lead (c.level.takeWhile (!q ·))))], c.toEnd ends) := by
  have hwhole : ∀ cs, splitOn (fun x => false && isComma x) cs = [cs] := fun cs =>
    splitOn_of_forall fun _ _ => rfl
  rw [collect_eq hspace hcomment hq, hwhole, textsBehind, List.map_nil, List.map_singleton]

end

theorem prelude_eq (c : Cursor) : c.prelude =
    (String.ofList (Text.trim (textBehind c.lead (untilEnd c.level))), c.toEnd endsPrelude) := by
  unfold prelude
  rw [collect_whole rfl rfl OfFirst.isEnd]
  simp [String.join, untilEnd]

theorem selectors_eq (c : Cursor) : c.selectors =
    ((textsBehind c.lead (splitOn isComma (untilCurly c.level))).map fun text =>
      String.ofList (Text.trim text), c.toEnd endsSelectors) :=
  collect_eq rfl rfl OfFirst.isCurly true c

end Cursor

/-! ## The readers of components -/

/-- A block in front of the selectors that is to be passed over is text of the first one. -/
theorem selectorsOf_eq {skipped : Option Skipped} {cs : List Component}
    (h : ∀ x ∈ cs.head?, x.isComment = true → skipped = none) : selectorsOf skipped cs =
      (textsBehind ((skipped.map Skipped.text).getD []) (splitOn isComma cs)).map fun text =>
        String.ofList (Text.trim text) := by
  cases skipped with
  | none =>
    rw [selectorsOf_none, show (Option.map Skipped.text none).getD [] = [] from rfl, textsBehind_nil,
      List.map_map]
    rfl
  | some s =>
    cases cs with
    | nil => rfl
    | cons c cs =>
      have hcomment : c.isComment = false := by
        rw [Bool.eq_false_iff]
        intro hc
        cases h c rfl hc
      unfold selectorsOf
      by_cases hcomma : c.isComma = true
      · have hsplit : splitOn isComma (c :: cs) = [] :: splitOn isComma cs := by
          rw [splitOn, if_pos hcomma]
        rw [hsplit]
        simp [hcomma, textsBehind, textBehind, plainText]
      · obtain ⟨first, others, -, hsplit⟩ :=
          exists_splitOn_cons (p := isComma) (Bool.eq_false_iff.2 hcomma) cs
        rw [hsplit]
        simp [hcomma, hcomment, textsBehind, textBehind]

namespace Cursor

/-- Where no block has been opened, the prelude is what a reader of components takes for it. -/
theorem prelude_level {c : Cursor} (h : c.opened = none) :
    c.prelude.1 = trimmedText (untilEnd c.level) ∧ c.prelude.2.level = fromEnd c.level := by
  rw [prelude_eq, lead_of_opened h, textBehind_nil]
  exact ⟨rfl, level_toEnd OfFirst.isEnd c⟩

/-- The selectors are what a reader of components takes for them. -/
theorem selectors_level {c : Cursor} {skipped : Option Skipped}
    (hskipped : (skipped.map Skipped.text).getD [] = c.lead)
    (hcomment : ∀ x ∈ (untilCurly c.level).head?, x.isComment = true → skipped = none) :
    c.selectors.1 = selectorsOf skipped (untilCurly c.level) ∧
      c.selectors.2.level = fromCurly c.level := by
  rw [selectors_eq, selectorsOf_eq hcomment, hskipped]
  exact ⟨rfl, level_toEnd OfFirst.isCurly c⟩

/-! ## Cursors for all levels -/

variable {c : Cursor}

theorem isBarrier_some (b : Bracket) (x : Component) :
    x.isBarrier (some b) = x.isLeaf (.closing b) := by
  cases x with
  | block => rfl
  | leaf t =>
    change t.isBarrier (some b) = (t.kind == .closing b)
    unfold Token.isBarrier
    cases t.kind with
    | closing c => cases b <;> cases c <;> rfl
    | _ => rfl

/-- A cursor behind an opening bracket, with the closing one for its barrier, has the level of the
block. -/
theorem level_inside (b : Bracket) (ts : List Token) :
    (Cursor.mk ts none (some b)).level = ofTokens (Token.enclosed b [] ts).inside := by
  rw [← takeWhile_ofTokens, level, settle_of_opened rfl]
  exact congrArg (List.takeWhile · (ofTokens ts)) (funext fun x => congrArg not (isBarrier_some b x))

theorem level_start (ts : List Token) : (Cursor.mk ts none none).level = ofTokens ts := by
  rw [level, settle_of_opened rfl, List.takeWhile_eq_self_iff]
  intro x _
  cases x with
  | block => rfl
  | leaf t => cases hkind : t.kind <;> simp [Component.isBarrier, Token.isBarrier, hkind, Token.Kind.closes?]

/-- What follows the first components of the level of a cursor is the level of a cursor. -/
theorem exists_of_suffix {cs : List Component} (h : cs <:+ c.level) :
    ∃ d : Cursor, d.rest <:+ c.rest ∧ d.opened = none ∧ d.level = cs := by
  induction hlength : c.rest.length using Nat.strongRecOn generalizing c with
  | ind n ih =>
    subst hlength
    have hhere : cs = c.level → ∃ d : Cursor, d.rest <:+ c.rest ∧ d.opened = none ∧ d.level = cs := by
      rintro rfl
      exact ⟨c.settle, c.settle_suffix, rfl, c.level_settle⟩
    cases hnext : c.next? with
    | none =>
      apply hhere
      rw [level_of_next?_eq_none hnext] at h ⊢
      exact List.suffix_nil.1 h
    | some step =>
      obtain ⟨t, d⟩ := step
      rw [level_of_next? hnext, List.suffix_cons_iff, ← level_of_next? hnext] at h
      rcases h with hcs | hsuffix
      · exact hhere hcs
      · obtain ⟨e, he, hopened, hlevel⟩ := ih _ (length_of_next? hnext) hsuffix rfl
        have hd : d.rest <:+ c.rest := (List.suffix_cons t d.rest).trans (suffix_of_next? hnext)
        exact ⟨e, he.trans hd, hopened, hlevel⟩

/-- What a block on the level of a cursor holds is the level of a cursor. -/
theorem exists_of_block {opener : Token} {contents : List Component} {closer : Option Token}
    (h : .block opener contents closer ∈ c.level) :
    ∃ d : Cursor, d.rest <:+ c.rest ∧ d.opened = none ∧ d.level = contents := by
  obtain ⟨front, back, hsplit⟩ := List.append_of_mem h
  obtain ⟨d, hd, -, hlevel⟩ := exists_of_suffix (c := c) (hsplit ▸ List.suffix_append front _)
  cases hnext : d.next? with
  | none =>
    rw [level_of_next?_eq_none hnext] at hlevel
    cases hlevel
  | some step =>
    obtain ⟨t, e⟩ := step
    rw [level_of_next? hnext, Scan.component] at hlevel
    have hcomponent := (List.cons.inj hlevel).1
    cases hopens : t.kind.opens? with
    | none =>
      rw [hopens] at hcomponent
      cases hcomponent
    | some b =>
      rw [hopens] at hcomponent
      obtain ⟨-, rfl, -⟩ := Component.block.inj hcomponent
      have he : e.rest <:+ d.rest := (List.suffix_cons t e.rest).trans (suffix_of_next? hnext)
      exact ⟨⟨e.rest, none, some b⟩, he.trans hd, rfl, level_inside b e.rest⟩

/-- Wherever a reader of components stands in a text, there is a cursor that stands there. -/
theorem exists_of_within {ts : List Token} {level cs : List Component}
    (h : Component.Within (ofTokens ts) level) (hcs : cs <:+ level) :
    ∃ c : Cursor, c.rest <:+ ts ∧ c.opened = none ∧ c.level = cs := by
  have hlevel : ∃ c : Cursor, c.rest <:+ ts ∧ c.level = level := by
    clear hcs
    induction h with
    | here => exact ⟨⟨ts, none, none⟩, List.suffix_rfl, level_start ts⟩
    | inside _ hmem ih =>
      obtain ⟨c, hc, rfl⟩ := ih
      obtain ⟨d, hd, -, hlevel⟩ := exists_of_block hmem
      exact ⟨d, hd.trans hc, hlevel⟩
  obtain ⟨c, hc, rfl⟩ := hlevel
  obtain ⟨d, hd, hopened, rfl⟩ := exists_of_suffix hcs
  exact ⟨d, hd.trans hc, hopened, rfl⟩

end Cursor

/-! ## The tokens that are passed over -/

namespace Nested

/-- Whether a token ends what is read: outside of all brackets it is of a kind that does, or it is the
closing bracket that ends the row. -/
def stops (ends : Token.Kind → Bool) (barrier : Option Bracket) (n : Nested) : Bool :=
  n.around.isEmpty && (ends n.token.kind || n.token.isBarrier barrier)

/-- The text of a row of tokens without the comments outside of all brackets, with `lead` in front of the
first token unless that is such a comment. -/
def textBehind (lead : List Char) : List Nested → List Char
  | [] => []
  | n :: ns => if n.isTop .comment then plainText ns else lead ++ plainText (n :: ns)

/-- The texts of several rows, with `lead` in front of the first one. -/
def textsBehind (lead : List Char) : List (List Nested) → List (List Char)
  | [] => []
  | row :: rows => textBehind lead row :: rows.map plainText

theorem map_token_ofTokens (bs : List Bracket) (ts : List Token) : (ofTokens bs ts).map token = ts := by
  induction ts generalizing bs with
  | nil => rfl
  | cons t ts ih => exact congrArg (t :: ·) (ih (t.nest bs))

theorem textBehind_nil (ns : List Nested) : textBehind [] ns = plainText ns := by
  cases ns with
  | nil => rfl
  | cons n ns =>
    rw [textBehind]
    split
    · next h => rw [plainText, plainText, List.filter_cons_of_neg (by rw [h]; exact Bool.false_ne_true)]
    · rfl

theorem textsBehind_nil (rows : List (List Nested)) : textsBehind [] rows = rows.map plainText := by
  cases rows with
  | nil => rfl
  | cons row rows => rw [textsBehind, textBehind_nil, List.map_cons]

theorem length_textsBehind (lead : List Char) (rows : List (List Nested)) :
    (textsBehind lead rows).length = rows.length := by
  cases rows with
  | nil => rfl
  | cons row rows => rw [textsBehind, List.length_cons, List.length_map, List.length_cons]

end Nested

/-- A row is cut into one piece more than there are places to cut it. -/
theorem length_splitOnP {α : Type} (p : α → Bool) (as : List α) :
    (as.splitOnP p).length = as.countP p + 1 := by
  induction as with
  | nil => rfl
  | cons a as ih =>
    rw [List.splitOnP_cons_eq_if_modifyHead, List.countP_cons]
    split
    · rw [List.length_cons, ih]
    · rw [List.length_modifyHead, ih]

/-- The first piece is what stands in front of the first place to cut. -/
theorem exists_splitOnP_eq {α : Type} (p : α → Bool) (as : List α) :
    ∃ others, as.splitOnP p = as.takeWhile (!p ·) :: others := by
  induction as with
  | nil => exact ⟨[], rfl⟩
  | cons a as ih =>
    obtain ⟨others, hsplit⟩ := ih
    rw [List.splitOnP_cons_eq_if_modifyHead, List.takeWhile_cons, hsplit]
    cases p a with
    | true => exact ⟨_, rfl⟩
    | false => exact ⟨others, rfl⟩

namespace Spelled

variable {ns : List Nested} {cs : List Component}

theorem map_token (h : Spelled ns cs) : ns.map Nested.token = tokensOf cs := by
  induction h with
  | nil => rfl
  | leaf _ _ ih =>
    rw [List.map_cons, ih, tokensOf_cons, tokens, List.singleton_append]
  | block _ _ htokens _ ih =>
    rw [List.map_cons, List.map_append, htokens, ih, tokensOf_cons, tokens]
    simp only [List.cons_append, List.append_assoc]

theorem textBehind_eq (h : Spelled ns cs) (lead : List Char) :
    Nested.textBehind lead ns = Component.textBehind lead cs := by
  have hplain := h.plainText_eq
  cases h with
  | nil => rfl
  | @leaf t ns cs hopens rest =>
    rw [Nested.textBehind, Component.textBehind, rest.plainText_eq, hplain]
    rfl
  | @block t b inside ns contents cs closer hopens haround htokens rest =>
    rw [Nested.textBehind, Component.textBehind, hplain, Nested.isTop_opener hopens rfl]
    rfl

theorem textsBehind_eq {rows : List (List Nested)} {chunks : List (List Component)}
    (h : List.Forall₂ Spelled rows chunks) (lead : List Char) :
    Nested.textsBehind lead rows = Component.textsBehind lead chunks := by
  cases h with
  | nil => rfl
  | cons hfirst hothers =>
    have hmap : ∀ {rows : List (List Nested)} {chunks : List (List Component)},
        List.Forall₂ Spelled rows chunks →
          rows.map Nested.plainText = chunks.map Component.plainText := by
      intro rows chunks h
      induction h with
      | nil => rfl
      | cons hrow _ ih => rw [List.map_cons, List.map_cons, hrow.plainText_eq, ih]
    rw [Nested.textsBehind, Component.textsBehind, hfirst.textBehind_eq, hmap hothers]

end Spelled

namespace Cursor

/-- The tokens from a cursor to the first that ends what is read. -/
def passed (ends : Token.Kind → Bool) (c : Cursor) : List Nested :=
  (Nested.ofTokens [] c.settle.rest).takeWhile (!·.stops ends c.barrier)

/-- The tokens from the first that ends what is read on. -/
def left (ends : Token.Kind → Bool) (c : Cursor) : List Nested :=
  (Nested.ofTokens [] c.settle.rest).dropWhile (!·.stops ends c.barrier)

section

variable {ends : Token.Kind → Bool} {q : Component → Bool}
  (hq : OfFirst (fun t => ends t.kind) q)

include hq

theorem spelled_passed (c : Cursor) : Spelled (c.passed ends) (c.level.takeWhile (!q ·)) := by
  have hstops := hq.or (.isBarrier c.barrier)
  have hfront : c.level.takeWhile (!q ·) =
      (ofTokens c.settle.rest).takeWhile fun x => !(q x || x.isBarrier c.barrier) := by
    rw [level, List.takeWhile_takeWhile]
    congr 1
    funext x
    cases q x <;> cases x.isBarrier c.barrier <;> rfl
  rw [hfront]
  refine (Spelled.split (fun t hopens => ?_) (fun t b contents closer hopens => ?_)
    (fun t b n _ _ haround => ?_) (spelled_ofTokens c.settle.rest)).1
  · exact congrArg not (hstops.leaf t hopens).symm
  · exact congrArg not (hstops.block t b contents closer hopens).symm
  · rw [Nested.stops]
    cases hnil : n.around with
    | nil =>
      rw [hnil] at haround
      cases haround
    | cons => rfl

/-- A reader that goes on to an end stands in front of the first token that is one. -/
theorem toEnd_eq (c : Cursor) :
    c.toEnd ends = ⟨(c.left ends).map Nested.token, none, c.barrier⟩ := by
  obtain ⟨hopened, hbarrier, -⟩ := toEnd_cases ends c
  have hrest : (c.left ends).map Nested.token = (c.toEnd ends).rest := by
    refine (List.append_right_inj (tokensOf (c.level.takeWhile (!q ·)))).1 ?_
    rw [tokensOf_toEnd hq, ← (spelled_passed hq c).map_token, ← List.map_append, passed, left,
      List.takeWhile_append_dropWhile, Nested.map_token_ofTokens]
  rw [hrest, ← hopened, ← hbarrier]

end

/-! ## What is collected -/

/-- The text of the tokens up to the end of a prelude, without the comments outside of all brackets and
trimmed. -/
def preludeText (c : Cursor) : String :=
  String.ofList (Text.trim (Nested.plainText (c.passed endsPrelude)))

/-- The texts between the commas outside of all brackets, up to the end of selectors. -/
def selectorTexts (c : Cursor) : List String :=
  ((c.passed endsSelectors).splitOnP (Nested.isTop .comma)).map fun row =>
    String.ofList (Text.trim (Nested.plainText row))

/-- A prelude has what is left of an opened block in front. -/
theorem prelude_behind_lead (c : Cursor) : c.prelude =
    (String.ofList (Text.trim (Nested.textBehind c.lead (c.passed endsPrelude))),
      ⟨(c.left endsPrelude).map Nested.token, none, c.barrier⟩) := by
  rw [prelude_eq, toEnd_eq OfFirst.isEnd, (spelled_passed OfFirst.isEnd c).textBehind_eq]
  rfl

/-- The first selector has what is left of an opened block in front. -/
theorem selectors_behind_lead (c : Cursor) : c.selectors =
    ((Nested.textsBehind c.lead ((c.passed endsSelectors).splitOnP (Nested.isTop .comma))).map fun text =>
        String.ofList (Text.trim text),
      ⟨(c.left endsSelectors).map Nested.token, none, c.barrier⟩) := by
  have hcomma : Token.Kind.comma.opens? = none := rfl
  have htexts := Spelled.textsBehind_eq
    (Spelled.splitOn_kind hcomma (spelled_passed OfFirst.isCurly c)) c.lead
  rw [selectors_eq, toEnd_eq OfFirst.isCurly, htexts]
  rfl

/-- Where no block has just been opened, the text of what is passed over is collected and nothing else. -/
theorem collects_exactly {c : Cursor} (h : c.opened = none) :
    c.prelude.1 = c.preludeText ∧ c.selectors.1 = c.selectorTexts := by
  rw [prelude_behind_lead, selectors_behind_lead, lead_of_opened h, Nested.textBehind_nil,
    Nested.textsBehind_nil, List.map_map]
  exact ⟨rfl, rfl⟩

/-! ## Behind an opening bracket -/

/-- A block with something behind it has been closed. -/
theorem exists_closer {bs : List Bracket} {ts : List Token} (hbs : bs ≠ []) (h : passOver bs ts ≠ []) :
    ∃ front closer, ts = front ++ closer :: passOver bs ts ∧ closer.kind.closes?.isSome = true := by
  fun_induction passOver bs ts with
  | case1 ts => exact absurd rfl hbs
  | case2 => exact absurd rfl h
  | case3 b bs t ts hcloses ih =>
    cases bs with
    | nil => exact ⟨[], t, by rw [passOver_nil]; rfl, by rw [hcloses]; rfl⟩
    | cons c bs =>
      obtain ⟨front, closer, hts, hclosing⟩ := ih (List.cons_ne_nil c bs) h
      exact ⟨t :: front, closer, congrArg (t :: ·) hts, hclosing⟩
  | case4 b bs t ts _ inner _ ih | case5 b bs t ts _ _ ih =>
    obtain ⟨front, closer, hts, hclosing⟩ := ih (List.cons_ne_nil _ _) h
    exact ⟨t :: front, closer, congrArg (t :: ·) hts, hclosing⟩

/-- A closing bracket is no white space. -/
theorem exists_mem_text_of_closes {loc : Location} {cs : List Char} {t : Token}
    (h : t ∈ Token.lex loc cs) (hcloses : t.kind.closes?.isSome = true) :
    ∃ x ∈ t.text, Text.isBlank x = false := by
  have hmark : t.kind.isMark = true := by
    cases hkind : t.kind <;> first | rfl | (rw [hkind] at hcloses; cases hcloses)
  obtain ⟨x, htext, hsingle⟩ := Token.exists_singleKind_of_isMark h hmark
  refine ⟨x, by rw [htext]; exact List.mem_singleton_self x, ?_⟩
  rw [hsingle] at hcloses
  unfold Token.singleKind at hcloses
  split at hcloses <;> first | decide | cases hcloses

section

variable {css : List Char} {loc : Location} {c : Cursor} (h : c.rest <:+ Token.lex loc css)

include h

/-- What is left of an opened block is more than white space where something stands behind it. -/
theorem lead_blank_iff (hrest : c.settle.rest ≠ []) :
    (∀ x ∈ c.lead, Text.isBlank x = true) ↔ c.opened = none := by
  constructor
  · intro hblank
    cases hopened : c.opened with
    | none => rfl
    | some b =>
      have hsettle : c.settle.rest = passOver [b] c.rest := by rw [settle, hopened]; rfl
      rw [hsettle] at hrest
      obtain ⟨front, closer, hfront, hcloses⟩ := exists_closer (List.cons_ne_nil b []) hrest
      have hmem : closer ∈ Token.lex loc css := by
        refine h.subset ?_
        rw [hfront]
        exact List.mem_append_right front List.mem_cons_self
      obtain ⟨x, hx, hnot⟩ := exists_mem_text_of_closes hmem hcloses
      have hlead : c.lead = (front ++ [closer]).flatMap Token.text := by
        rw [lead, hsettle, ← Scan.between_append (front ++ [closer]) (passOver [b] c.rest),
          List.append_assoc, List.singleton_append, ← hfront]
      rw [hblank x (hlead ▸ by simp [hx])] at hnot
      cases hnot
  · intro hopened x hx
    rw [lead_of_opened hopened] at hx
    cases hx

/-- The text of a row that starts where the reader stands is exact if no block has just been opened, or if
the row starts with a comment or has nothing in it. -/
theorem trim_textBehind_iff {row behind : List Nested}
    (hrow : Nested.ofTokens [] c.settle.rest = row ++ behind) :
    Text.trim (Nested.textBehind c.lead row) = Text.trim (Nested.plainText row) ↔
      c.opened = none ∨ ∀ n ∈ row.head?, n.isTop .comment = true := by
  cases row with
  | nil => exact iff_of_true rfl (.inr nofun)
  | cons n row =>
    have hrest : c.settle.rest ≠ [] := by
      intro hnil
      rw [hnil] at hrow
      cases hrow
    have hhead : (∀ m ∈ (n :: row).head?, m.isTop .comment = true) ↔ n.isTop .comment = true := by simp
    rw [hhead, ← lead_blank_iff h hrest, Nested.textBehind]
    cases hcomment : n.isTop .comment with
    | true =>
      refine iff_of_true ?_ (.inr rfl)
      rw [if_pos rfl, Nested.plainText, Nested.plainText,
        List.filter_cons_of_neg (by rw [hcomment]; exact Bool.false_ne_true)]
    | false =>
      rw [if_neg Bool.false_ne_true, Text.trim_append_eq_iff]
      simp

theorem prelude_eq_iff : c.prelude.1 = c.preludeText ↔
    c.opened = none ∨ ∀ n ∈ (c.passed endsPrelude).head?, n.isTop .comment = true := by
  rw [prelude_behind_lead, preludeText]
  exact String.ofList_inj.trans (trim_textBehind_iff h List.takeWhile_append_dropWhile.symm)

theorem selectors_eq_iff : c.selectors.1 = c.selectorTexts ↔
    c.opened = none ∨ ∀ n ∈ (c.passed endsSelectors).head?,
      (n.isTop .comment || n.isTop .comma) = true := by
  obtain ⟨others, hrows⟩ := exists_splitOnP_eq (Nested.isTop .comma) (c.passed endsSelectors)
  have hfront : (c.passed endsSelectors).takeWhile (!Nested.isTop .comma ·) <+:
      Nested.ofTokens [] c.settle.rest :=
    (List.takeWhile_prefix _).trans (List.takeWhile_prefix _)
  obtain ⟨behind, hbehind⟩ := hfront
  have hhead : (∀ n ∈ ((c.passed endsSelectors).takeWhile (!Nested.isTop .comma ·)).head?,
      n.isTop .comment = true) ↔ ∀ n ∈ (c.passed endsSelectors).head?,
        (n.isTop .comment || n.isTop .comma) = true := by
    cases c.passed endsSelectors with
    | nil => exact iff_of_true nofun nofun
    | cons n row => cases hcomma : n.isTop .comma <;> simp [hcomma]
  rw [selectors_behind_lead, selectorTexts, hrows, Nested.textsBehind, ← hhead,
    ← trim_textBehind_iff h hbehind.symm]
  simp only [List.map_cons, List.map_map, List.cons.injEq, Function.comp_def, and_true]
  exact String.ofList_inj

end

/-- **Preludes are collected exactly, unless a block has just been opened.**  Wherever a reader stands in a
text and whatever bracket ends its row, it stops in front of the first token outside of all brackets that
ends what it reads.  There is one piece more than there are commas outside of all brackets in between, and
no text is given up, since the next token is an end or there is none.

A prelude is the text of the tokens that have been passed over, and selectors are that text between the
commas, exactly if no block has just been opened, or if a comment or the end comes first, or for selectors
a comma.  Otherwise what is left of the block stands in front.

The readers of components collect the same, and wherever in a text one of them stands, there is a cursor
that stands there. -/
theorem preludes_exact_iff (css : List Char) :
    (∀ c : Cursor, c.rest <:+ Token.lex Location.start css →
      c.prelude.2 = ⟨(c.left endsPrelude).map Nested.token, none, c.barrier⟩ ∧
      c.selectors.2 = ⟨(c.left endsSelectors).map Nested.token, none, c.barrier⟩ ∧
      c.selectors.1.length = (c.passed endsSelectors).countP (Nested.isTop .comma) + 1 ∧
      (c.pieces endsPrelude false []).2.skipBlank.nextBefore? endsPrelude = none ∧
      (c.pieces endsSelectors true []).2.skipBlank.nextBefore? endsSelectors = none ∧
      (c.prelude.1 = c.preludeText ↔
        c.opened = none ∨ ∀ n ∈ (c.passed endsPrelude).head?, n.isTop .comment = true) ∧
      (c.selectors.1 = c.selectorTexts ↔
        c.opened = none ∨ ∀ n ∈ (c.passed endsSelectors).head?,
          (n.isTop .comment || n.isTop .comma) = true)) ∧
    (∀ level cs, Component.Within (ofText Location.start css) level → cs <:+ level →
      ∃ c : Cursor, c.rest <:+ Token.lex Location.start css ∧ c.opened = none ∧ c.level = cs) ∧
    (∀ c : Cursor, c.opened = none →
      c.prelude.1 = trimmedText (untilEnd c.level) ∧ c.prelude.2.level = fromEnd c.level) ∧
    ∀ (c : Cursor) (skipped : Option Skipped), (skipped.map Skipped.text).getD [] = c.lead →
      (∀ x ∈ (untilCurly c.level).head?, x.isComment = true → skipped = none) →
      c.selectors.1 = selectorsOf skipped (untilCurly c.level) ∧
        c.selectors.2.level = fromCurly c.level := by
  refine ⟨fun c hsource => ?_, fun level cs => exists_of_within,
    fun c => prelude_level, fun c skipped => selectors_level⟩
  refine ⟨?_, ?_, ?_, nextBefore?_pieces rfl rfl OfFirst.isEnd false c,
    nextBefore?_pieces rfl rfl OfFirst.isCurly true c, prelude_eq_iff hsource, selectors_eq_iff hsource⟩
  · rw [prelude_behind_lead]
  · rw [selectors_behind_lead]
  · rw [selectors_behind_lead, List.length_map, Nested.length_textsBehind, length_splitOnP]

/-- A reader behind the bracket that opens a block without selectors. -/
def behindOpener : Cursor where
  rest := (Token.lex Location.start "\x7ba\x7db\x7bc:d\x7d".toList).tail
  opened := some .curly

/-- Behind the bracket that opens a block without selectors, the next selector has the rest of that block in
front. -/
theorem preludes_exact_behind_opener :
    behindOpener.rest <:+ Token.lex Location.start "\x7ba\x7db\x7bc:d\x7d".toList ∧
      behindOpener.selectors.1 = ["a\x7db"] ∧ behindOpener.selectorTexts = ["b"] ∧
      behindOpener.selectors.1 ≠ behindOpener.selectorTexts ∧
      (Stylesheet.parse "\x7ba\x7db\x7bc:d\x7d" ⟨none, true⟩).map (·.rules) =
        .ok [.style ["a\x7db"] [.declaration ⟨"c", "d"⟩]] := by
  have hsource : behindOpener.rest <:+ Token.lex Location.start "\x7ba\x7db\x7bc:d\x7d".toList :=
    List.tail_suffix _
  have hfirst : (behindOpener.passed endsSelectors).head? = some ⟨[], ⟨.ident, ['b'], ⟨1, 4⟩⟩⟩ := by
    decide +kernel
  obtain ⟨hexact, -⟩ := preludes_exact_iff "\x7ba\x7db\x7bc:d\x7d".toList
  obtain ⟨-, -, -, -, -, -, hiff⟩ := hexact behindOpener hsource
  refine ⟨hsource, by decide +kernel, by decide +kernel, ?_, by decide +kernel⟩
  rw [ne_eq, hiff]
  rintro (hopened | hcomment)
  · cases hopened
  · cases hcomment _ hfirst

-- The comma in the block cuts nothing, the comment there stays, and two brackets close nothing.
example : selectors ⟨Token.lex Location.start "a/**/(b,]/**/)],c\x7b".toList, none, none⟩ =
    (["a(b,]/**/)]", "c"], ⟨[⟨.opening .curly, ['\x7b'], ⟨1, 18⟩⟩], none, none⟩) := by
  decide +kernel

end Cursor

end Restyle.Css
