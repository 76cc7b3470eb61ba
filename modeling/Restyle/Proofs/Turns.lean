import Restyle.Proofs.Preludes

/-!
# Readers turn by turn

A reader that knows tokens only goes through rules, frames and declarations in loops.  A turn of a loop
looks at the next token.  Unless that is passed over or a comment, the turn goes back in front of it and
reads a rule, a frame or a declaration from there, and an at-rule that does not have the form its keyword
asks for is read once more from the keyword.  A block is read by a loop of its own, and when that has ended
the turn goes on behind the block.

A turn may read next to nothing: where nothing stands in front of a block, or no block where one should.
It always gets ahead, though, and never beyond the end of the row that it is in (`Turn.Advances`).  So there
is an end to reading, whatever the tokens are (`Place.read`), and it takes no more turns than there are
tokens (`Place.turns_le`).
-/

namespace Restyle.Css

open Component

/-- The loops of a reader. -/
inductive Loop where
  | rules
  | frames
  | declarations
  deriving DecidableEq

/-- What a loop reads. -/
abbrev Loop.Entry : Loop → Type
  | .rules => Rule
  | .frames => FrameEntry
  | .declarations => DeclarationEntry

/-- A loop and where it stands in front of a turn. -/
structure Place where
  loop : Loop
  cursor : Cursor

/-- One turn of a loop that reads entries of some type. -/
inductive Turn (ε : Type) where
  /-- What the turn reads and where it goes on. -/
  | plain (here : Reading (List ε)) (behind : Cursor)
  /-- A turn that runs a loop inside a block and makes something of what that reads. -/
  | entering (inside : Place) (here : Reading (List inside.loop.Entry) → Reading (List ε))
    (behind : Cursor)

namespace Turn

variable {ε : Type}

/-- Where a turn leaves its loop. -/
def behind : Turn ε → Cursor
  | .plain _ behind => behind
  | .entering _ _ behind => behind

/-- Where the loop starts that a turn runs inside a block. -/
def inside? : Turn ε → Option Place
  | .plain _ _ => none
  | .entering inside _ _ => some inside

end Turn

namespace Cursor

/-- Where a cursor stands in a text that ends at `last`. -/
def place (last : Location) (c : Cursor) : Location :=
  (c.rest.head?.map Token.start).getD last

/-- The next token that is neither white space nor a comment. -/
def nextSolid? (c : Cursor) : Option (Token × Cursor) :=
  c.skipBlank.next?

/-- Opens the block in curly brackets that comes next, if one does. -/
def enter? (c : Cursor) : Option Cursor :=
  match c.nextSolid? with
  | none => none
  | some (t, d) => if t.kind = .opening .curly then some d else none

/-- Passes over the opening bracket of a block, if one comes next. -/
def skipBlock (c : Cursor) : Cursor :=
  c.enter?.getD c

/-- A cursor inside the block that has been opened. -/
def nested (c : Cursor) : Cursor :=
  ⟨c.rest, none, c.opened⟩

/-- Passes over the semicolon of a statement, which the end of the row may stand for. -/
def afterEnd? (c : Cursor) : Option Cursor :=
  match c.nextSolid? with
  | none => some c.skipBlank
  | some (t, d) => if t.kind = .semicolon then some d else none

/-- The text of a statement without a block, and the cursor behind it. -/
def statement? (c : Cursor) : Option (String × Cursor) :=
  let prelude := c.prelude
  if prelude.1 == "" then none else prelude.2.afterEnd?.map fun behind => (prelude.1, behind)

/-- What ends a value. -/
def endsValue (kind : Token.Kind) : Bool := kind == .semicolon

/-- Reads a property and its colon.  The property starts where `start` does. -/
def property (start : List Token) (c : Cursor) : Option String × Cursor :=
  match _h : c.nextBefore? endsValue with
  | none => (none, c.settle)
  | some (t, d) =>
    if t.kind = .colon then (Scan.nameOf? (Scan.between start c.rest), d)
    else if Scan.isNamePart t then d.property start
    else if t.kind = .opening .square then d.skipContents.property start
    else (none, d)
termination_by c.rest.length
decreasing_by
  · exact length_of_next? (nextBefore?_eq_some_iff.1 _h).1
  · rw [skipContents_eq]
    exact Nat.lt_of_le_of_lt d.settle_suffix.length_le
      (length_of_next? (nextBefore?_eq_some_iff.1 _h).1)

/-- Passes over a semicolon, if one comes next. -/
def skipSemicolon (c : Cursor) : Cursor :=
  match c.next? with
  | none => c
  | some (t, d) => if t.kind = .semicolon then d else c

/-- Reads a declaration and what is left up to and including the next semicolon. -/
def declaration (c : Cursor) : Option Declaration × Cursor :=
  match c.property c.rest with
  | (none, d) => (none, (d.toEnd endsValue).skipSemicolon)
  | (some name, d) =>
    let value := d.collect endsValue false
    (if value.1.isEmpty then none else some ⟨name, String.join value.1⟩, value.2.skipSemicolon)

end Cursor

/-! ## Turns -/

namespace Turn

variable {ε : Type} (last : Location)

/-- Reads the body of a construct by a loop.  Without a block the turn is over where it should be. -/
def body (construct : Construct) (loop : Loop) (c : Cursor)
    (give : Option (List loop.Entry) → List ε) : Turn ε :=
  match c.enter? with
  | none => .plain (do
      Reading.report (.noBlock construct) (c.place last)
      return give none) c
  | some d =>
    let inside := d.nested
    let behind := d.skipContents
    .entering ⟨loop, inside⟩ (fun read => do
      let entries ← read
      let ending := Scan.between inside.drain.rest behind.rest
      if ending.getLast? ≠ some '\x7d' then
        Reading.report (.openBlock construct) (behind.place last)
      return give (some entries)) behind

/-- Reads what has selectors or moments in front of its body. -/
def headed (make : List String → List DeclarationEntry → ε) (c : Cursor) : Turn ε :=
  let selectors := c.selectors
  if selectors.1.all (· == "") then
    .plain (do
      Reading.report .noSelector (c.place last)
      return []) selectors.2.skipBlock
  else body last .plain .declarations selectors.2 fun declarations =>
    [make selectors.1 (declarations.getD [])]

/-- Reads a group from its prelude on. -/
def group (head : String → Group) (c : Cursor) : Turn Rule :=
  let prelude := c.prelude
  body last (head prelude.1).construct .rules prelude.2 fun rules =>
    (rules.map (Rule.group (head prelude.1))).toList

/-- Reads an at-rule whose keyword stands between two cursors. -/
def atRule (keyword : Token) (start c : Cursor) : Turn Rule :=
  match AtRule.ofKeyword? keyword.keyword with
  | none => headed last Rule.style start
  | some .media => group last .media c
  | some .supports => group last .supports c
  | some (.document vendor) => group last (.document · vendor) c
  | some .host => group last (fun _ => .host) c
  | some (.keyframes vendor) =>
    let name := c.prelude
    if name.1 == "" then
      .plain (do
        Reading.report .namelessKeyframes (c.place last)
        return []) name.2.skipBlock
    else body last .keyframes .frames name.2 fun frames =>
      (frames.map (Rule.keyframes name.1 vendor)).toList
  | some .page =>
    let selectors := c.selectors
    body last .page .declarations selectors.2 fun declarations =>
      (declarations.map (Rule.page (selectors.1.filter (· != "")))).toList
  | some .fontFace =>
    body last .fontFace .declarations c.prelude.2 fun declarations =>
      (declarations.map Rule.fontFace).toList
  | some .customMedia =>
    match c.statement?.bind fun s => (AtRule.customMedia? s.1).map fun rule => (rule, s.2) with
    | some (rule, behind) => .plain (return [rule]) behind
    | none => headed last Rule.style start
  | some (.directive directive) =>
    match c.statement? with
    | some (text, behind) => .plain (return [.directive directive text]) behind
    | none => headed last Rule.style start

/-- A turn at a token that says nothing or is a comment, or else another turn. -/
def orBlank (comment : String → ε) (other : Token → Cursor → Turn ε) (c : Cursor) (t : Token)
    (d : Cursor) : Turn ε :=
  if t.kind = .whiteSpace ∨ t.kind = .semicolon then .plain (return []) d
  else if t.kind = .comment then
    .plain (do
      let text ← readComment (Token.commentBody t.text) (Scan.between c.rest d.rest) (c.place last)
      return (text.map comment).toList) d
  else other t d

/-- Reads a rule. -/
def rule (c : Cursor) (t : Token) (d : Cursor) : Turn Rule :=
  match t.kind with
  | .openMark | .closeMark => .plain (return []) d
  | .closing .curly =>
    .plain (do
      Reading.note (.strayBracket (c.place last).line)
      return []) d
  | .atKeyword => atRule last t c d
  | _ => headed last Rule.style c

/-- Reads a declaration. -/
def declaration (c : Cursor) : Turn DeclarationEntry :=
  .plain
    (match c.declaration.1 with
    | some d => return [.declaration d]
    | none => do
      Reading.report .noProperty (c.place last)
      return [])
    c.declaration.2

end Turn

/-- A turn that reads a rule, a frame or a declaration from where it started. -/
def Loop.anew (last : Location) (c : Cursor) : (loop : Loop) → Turn loop.Entry
  | .rules => Turn.headed last Rule.style c
  | .frames => Turn.headed last (fun moments ds => .frame ⟨moments, ds⟩) c
  | .declarations => Turn.declaration last c

/-- The next turn of a loop, unless the loop has come to its end. -/
def Loop.turn? (last : Location) (c : Cursor) : (loop : Loop) → Option (Turn loop.Entry)
  | .rules => c.next?.map fun (t, d) => Turn.orBlank last Rule.comment (Turn.rule last c) c t d
  | .frames => c.next?.map fun (t, d) =>
    Turn.orBlank last FrameEntry.comment (fun _ _ => Loop.frames.anew last c) c t d
  | .declarations => c.next?.map fun (t, d) =>
    Turn.orBlank last DeclarationEntry.comment (fun _ _ => Loop.declarations.anew last c) c t d

def Place.turn? (last : Location) (p : Place) : Option (Turn p.loop.Entry) :=
  p.loop.turn? last p.cursor

/-! ## Getting ahead -/

namespace Cursor

/-- To read on leads from one cursor to another in the same row. -/
structure Along (c d : Cursor) : Prop where
  suffix : d.rest <:+ c.rest
  drain : d.drain = c.drain

/-- To read on leads from one cursor to another, and something has been read then. -/
structure Ahead (c d : Cursor) : Prop extends Along c d where
  shorter : d.rest.length < c.rest.length

variable {c d e : Cursor} {t : Token}

theorem along_refl (c : Cursor) : c.Along c :=
  ⟨List.suffix_rfl, rfl⟩

theorem Along.trans (h : c.Along d) (h' : d.Along e) : c.Along e :=
  ⟨h'.suffix.trans h.suffix, h'.drain.trans h.drain⟩

theorem Along.ahead (h : c.Along d) (h' : d.Ahead e) : c.Ahead e :=
  ⟨h.trans h'.toAlong, Nat.lt_of_lt_of_le h'.shorter h.suffix.length_le⟩

theorem Ahead.along (h : c.Ahead d) (h' : d.Along e) : c.Ahead e :=
  ⟨h.toAlong.trans h', Nat.lt_of_le_of_lt h'.suffix.length_le h.shorter⟩

theorem endOfRow_suffix (barrier : Option Bracket) (bs : List Bracket) (ts : List Token) :
    endOfRow barrier bs ts <:+ ts := by
  fun_induction endOfRow barrier bs ts with
  | case1 => exact List.suffix_rfl
  | case2 t ts _ => exact List.suffix_rfl
  | case3 t ts _ ih | case4 b bs t ts _ ih | case5 b bs t ts _ inner _ ih | case6 b bs t ts _ _ ih =>
    exact ih.trans (List.suffix_cons t ts)

theorem drain_suffix (c : Cursor) : c.drain.rest <:+ c.settle.rest := by
  rw [drain_rest]
  exact endOfRow_suffix c.barrier [] c.settle.rest

theorem drain_settle (c : Cursor) : c.settle.drain = c.drain := by
  have hrest : c.settle.drain.rest = c.drain.rest := by rw [drain_rest, drain_rest, settle_settle]; rfl
  exact congrArg (Cursor.mk · none c.barrier) hrest

theorem along_settle (c : Cursor) : c.Along c.settle :=
  ⟨c.settle_suffix, c.drain_settle⟩

theorem ahead_of_next? (h : c.next? = some (t, d)) : c.Ahead d where
  suffix := (List.suffix_cons t d.rest).trans (suffix_of_next? h)
  drain := (drain_of_next? h).symm
  shorter := length_of_next? h

/-- White space and comments do not end a row. -/
theorem endOfRow_dropWhile (barrier : Option Bracket) (ts : List Token) :
    endOfRow barrier [] (ts.dropWhile fun t => t.kind == .whiteSpace || t.kind == .comment) =
      endOfRow barrier [] ts := by
  induction ts with
  | nil => rfl
  | cons t ts ih =>
    rw [List.dropWhile_cons]
    split
    · next hblank =>
      have hbarrier : ¬t.isBarrier barrier = true := by
        intro hbarrier
        rw [not_isBlank_of_isBarrier hbarrier] at hblank
        cases hblank
      have hopens : t.kind.opens? = none := by
        rcases Bool.or_eq_true_iff.1 hblank with hkind | hkind <;> rw [beq_iff_eq.1 hkind] <;> rfl
      rw [ih, endOfRow, if_neg hbarrier, hopens]
      rfl
    · rfl

theorem along_skipBlank (c : Cursor) : c.Along c.skipBlank where
  suffix := (List.dropWhile_suffix _).trans c.settle_suffix
  drain := by
    have hrest : c.skipBlank.drain.rest = c.drain.rest := by
      rw [drain_rest c, ← endOfRow_dropWhile]
      rfl
    exact congrArg (Cursor.mk · none c.barrier) hrest

theorem along_skipContents (c : Cursor) : c.Along c.skipContents := by
  rw [skipContents_eq]
  exact c.along_settle

theorem ahead_of_nextBefore? {ends : Token.Kind → Bool} (h : c.nextBefore? ends = some (t, d)) :
    c.Ahead d :=
  ahead_of_next? (nextBefore?_eq_some_iff.1 h).1

theorem along_toEnd (ends : Token.Kind → Bool) (c : Cursor) : c.Along (c.toEnd ends) := by
  fun_induction toEnd ends c with
  | case1 c h => exact c.along_settle
  | case2 c t d h ih => exact (ahead_of_nextBefore? h).toAlong.trans ih

theorem toEnd_of_nextBefore? {ends : Token.Kind → Bool} (h : c.nextBefore? ends = some (t, d)) :
    c.toEnd ends = d.toEnd ends := by
  rw [toEnd, h]

theorem ahead_toEnd {ends : Token.Kind → Bool} (h : c.nextBefore? ends = some (t, d)) :
    c.Ahead (c.toEnd ends) := by
  rw [toEnd_of_nextBefore? h]
  exact (ahead_of_nextBefore? h).along (along_toEnd ends d)

theorem enter?_eq_some_iff : c.enter? = some d ↔
    ∃ t, c.skipBlank.next? = some (t, d) ∧ t.kind = .opening .curly := by
  unfold enter? nextSolid?
  rcases c.skipBlank.next? with _ | ⟨t, e⟩
  · simp
  · simp [and_comm]

theorem ahead_of_enter? (h : c.enter? = some d) : c.Ahead d := by
  obtain ⟨t, hnext, -⟩ := enter?_eq_some_iff.1 h
  exact c.along_skipBlank.ahead (ahead_of_next? hnext)

theorem opened_of_enter? (h : c.enter? = some d) : d.opened = some .curly := by
  obtain ⟨t, hnext, hkind⟩ := enter?_eq_some_iff.1 h
  rw [(next?_eq_some_iff.1 hnext).2.2.1, hkind]
  rfl

/-- Behind a block is behind the end of the row inside. -/
theorem skipContents_suffix {b : Bracket} (h : c.opened = some b) :
    c.skipContents.rest <:+ c.nested.drain.rest := by
  have hrest : c.skipContents.rest = passOver [b] c.nested.drain.rest := by
    rw [skipContents, nested, h]
    rfl
  rw [hrest]
  exact passOver_suffix _ _

theorem along_skipBlock (c : Cursor) : c.Along c.skipBlock := by
  unfold skipBlock
  cases henter : c.enter? with
  | none => exact along_refl c
  | some d => exact (ahead_of_enter? henter).toAlong

theorem along_afterEnd? (h : c.afterEnd? = some d) : c.Along d := by
  unfold afterEnd? nextSolid? at h
  split at h
  · obtain rfl := Option.some.inj h
    exact c.along_skipBlank
  · next t e hnext =>
    obtain ⟨-, hd⟩ := Option.ite_none_right_eq_some.1 h
    obtain rfl := Option.some.inj hd
    exact c.along_skipBlank.trans (ahead_of_next? hnext).toAlong

theorem prelude_snd (c : Cursor) : c.prelude.2 = c.toEnd endsPrelude := by
  rw [prelude_eq]

theorem selectors_snd (c : Cursor) : c.selectors.2 = c.toEnd endsSelectors := by
  rw [selectors_eq]

theorem along_prelude (c : Cursor) : c.Along c.prelude.2 := by
  rw [prelude_snd]
  exact along_toEnd endsPrelude c

theorem along_selectors (c : Cursor) : c.Along c.selectors.2 := by
  rw [selectors_snd]
  exact along_toEnd endsSelectors c

theorem along_statement? {text : String} (h : c.statement? = some (text, d)) : c.Along d := by
  unfold statement? at h
  dsimp only at h
  split at h
  · cases h
  · obtain ⟨e, hend, heq⟩ := Option.map_eq_some_iff.1 h
    obtain ⟨-, rfl⟩ := Prod.mk.inj heq
    exact c.along_prelude.trans (along_afterEnd? hend)

theorem along_skipSemicolon (c : Cursor) : c.Along c.skipSemicolon := by
  unfold skipSemicolon
  split
  · exact along_refl c
  · next t d hnext =>
    split
    · exact (ahead_of_next? hnext).toAlong
    · exact along_refl c

/-! ## Declarations -/

theorem isSemicolon_ofFirst : OfFirst (fun t => endsValue t.kind) isSemicolon :=
  OfFirst.isLeaf rfl

/-- Wherever the reading of a property stops, the end of the declaration is the same. -/
theorem toEnd_property (start : List Token) (c : Cursor) :
    (c.property start).2.toEnd endsValue = c.toEnd endsValue := by
  fun_induction property start c with
  | case1 c h => exact toEnd_settle endsValue c
  | case2 c t d h | case5 c t d h => exact (toEnd_of_nextBefore? h).symm
  | case3 c t d h _ _ ih => rw [ih, toEnd_of_nextBefore? h]
  | case4 c t d h _ _ _ ih => rw [ih, skipContents_eq, toEnd_settle, toEnd_of_nextBefore? h]

/-- A declaration is left behind the next semicolon, whether it could be read or not. -/
theorem declaration_snd (c : Cursor) : c.declaration.2 = (c.toEnd endsValue).skipSemicolon := by
  have hproperty := toEnd_property c.rest c
  unfold declaration
  generalize c.property c.rest = stop at hproperty ⊢
  rcases stop with ⟨_ | name, d⟩
  · exact congrArg skipSemicolon hproperty
  · dsimp only at hproperty ⊢
    rw [collect_eq rfl rfl isSemicolon_ofFirst, hproperty]

end Cursor

/-! ## Turns get ahead -/

namespace Turn

variable {ε : Type} {last : Location} {c d e : Cursor}

/-- A turn gets ahead in its row.  If it runs a loop, that is inside a block which starts ahead, and the
turn goes on behind that block. -/
structure Advances (c : Cursor) (turn : Turn ε) : Prop where
  behind : c.Ahead turn.behind
  inside : ∀ p ∈ turn.inside?, ∃ d : Cursor, c.Ahead d ∧ d.opened = some .curly ∧
    p.cursor = d.nested ∧ turn.behind = d.skipContents

theorem advances_plain {here : Reading (List ε)} (h : c.Ahead d) : Advances c (plain here d) :=
  ⟨h, nofun⟩

theorem advances_body {construct : Construct} {loop : Loop} {give : Option (List loop.Entry) → List ε}
    (h : c.Ahead d) : Advances c (body last construct loop d give) := by
  unfold body
  cases henter : d.enter? with
  | none => exact advances_plain h
  | some e =>
    have he := h.along (Cursor.ahead_of_enter? henter).toAlong
    refine ⟨he.along e.along_skipContents, ?_⟩
    rintro p ⟨⟩
    exact ⟨e, he, Cursor.opened_of_enter? henter, rfl, rfl⟩

/-- Where nothing stands in front of an end, the selectors are empty. -/
theorem selectors_of_nextBefore?_eq_none (h : c.nextBefore? Cursor.endsSelectors = none) :
    c.selectors.1.all (· == "") = true := by
  have hfront : untilCurly c.level = [] :=
    (Cursor.level_of_nextBefore?_eq_none OfFirst.isCurly h).1
  rw [Cursor.selectors_eq, hfront]
  rfl

/-- If there is a next token, what stands in front of a body gets ahead: with a selector, or with the
bracket of the block that has none. -/
theorem advances_headed {make : List String → List DeclarationEntry → ε} {t : Token}
    (h : c.next? = some (t, d)) : Advances c (headed last make c) := by
  unfold headed
  dsimp only
  cases hfront : c.nextBefore? Cursor.endsSelectors with
  | some step =>
    have hahead : c.Ahead c.selectors.2 := by
      rw [Cursor.selectors_snd]
      exact Cursor.ahead_toEnd hfront
    split
    · exact advances_plain (hahead.along (Cursor.along_skipBlock _))
    · exact advances_body hahead
  | none =>
    -- A block without anything in front of it: its opening bracket is what the turn gets ahead by.
    have hkind : t.kind = .opening .curly := by
      rw [Cursor.nextBefore?, h, Option.filter_some] at hfront
      simpa [Cursor.endsSelectors] using hfront
    have hselectors : c.selectors.2 = c.settle := by
      rw [Cursor.selectors_snd, Cursor.toEnd, hfront]
    have henter : c.settle.enter? = some d := by
      refine Cursor.enter?_eq_some_iff.2 ⟨t, ?_, hkind⟩
      have hblank := Cursor.skipBlank_of_nextBefore?_eq_none (c := c.settle) rfl rfl
        (by rwa [Cursor.nextBefore?, Cursor.next?_settle])
      rw [hblank, Cursor.settle_settle, Cursor.next?_settle, h]
    rw [if_pos (selectors_of_nextBefore?_eq_none hfront), hselectors, Cursor.skipBlock, henter]
    exact advances_plain (Cursor.ahead_of_next? h)

theorem advances_group {head : String → Group} (h : c.Ahead d) :
    Advances c (group last head d) := by
  unfold group
  exact advances_body (h.along d.along_prelude)

theorem advances_atRule {keyword t : Token} (h : c.next? = some (t, d)) :
    Advances c (atRule last keyword c d) := by
  have hahead := Cursor.ahead_of_next? h
  unfold atRule
  split
  · exact advances_headed h
  · exact advances_group hahead
  · exact advances_group hahead
  · exact advances_group hahead
  · exact advances_group hahead
  · dsimp only
    split
    · exact advances_plain ((hahead.along d.along_prelude).along (Cursor.along_skipBlock _))
    · exact advances_body (hahead.along d.along_prelude)
  · exact advances_body (hahead.along d.along_selectors)
  · exact advances_body (hahead.along d.along_prelude)
  · split
    · next rule behind hrule =>
      obtain ⟨⟨text, e⟩, hstatement, hmap⟩ := Option.bind_eq_some_iff.1 hrule
      obtain ⟨rule', -, heq⟩ := Option.map_eq_some_iff.1 hmap
      obtain ⟨-, rfl⟩ := Prod.mk.inj heq
      exact advances_plain (hahead.along (Cursor.along_statement? hstatement))
    · exact advances_headed h
  · split
    · next text behind hstatement =>
      exact advances_plain (hahead.along (Cursor.along_statement? hstatement))
    · exact advances_headed h

theorem advances_declaration {t : Token} (h : c.next? = some (t, d)) (hkind : t.kind ≠ .semicolon) :
    Advances c (declaration last c) := by
  have hnext : c.nextBefore? Cursor.endsValue = some (t, d) :=
    Cursor.nextBefore?_eq_some_iff.2 ⟨h, beq_eq_false_iff_ne.2 hkind⟩
  refine advances_plain ?_
  rw [Cursor.declaration_snd]
  exact (Cursor.ahead_toEnd hnext).along (Cursor.along_skipSemicolon _)

theorem advances_anew {t : Token} (h : c.next? = some (t, d)) (hkind : t.kind ≠ .semicolon)
    (loop : Loop) : Advances c (loop.anew last c) := by
  cases loop <;> unfold Loop.anew
  · exact advances_headed h
  · exact advances_headed h
  · exact advances_declaration h hkind

theorem advances_orBlank {comment : String → ε} {other : Token → Cursor → Turn ε} {t : Token}
    (h : c.next? = some (t, d)) (hother : t.kind ≠ .semicolon → Advances c (other t d)) :
    Advances c (orBlank last comment other c t d) := by
  have hahead := Cursor.ahead_of_next? h
  unfold orBlank
  split
  · exact advances_plain hahead
  · next hblank =>
    split
    · exact advances_plain hahead
    · exact hother fun hkind => hblank (.inr hkind)

theorem advances_rule {t : Token} (h : c.next? = some (t, d)) : Advances c (rule last c t d) := by
  have hahead := Cursor.ahead_of_next? h
  unfold rule
  split
  · exact advances_plain hahead
  · exact advances_plain hahead
  · exact advances_plain hahead
  · exact advances_atRule h
  · exact advances_headed h

end Turn

/-- Every turn gets ahead. -/
theorem Place.advances {last : Location} {p : Place} {turn : Turn p.loop.Entry}
    (h : p.turn? last = some turn) : turn.Advances p.cursor := by
  obtain ⟨loop, c⟩ := p
  cases loop with
  | rules =>
    obtain ⟨⟨t, d⟩, hnext, rfl⟩ := Option.map_eq_some_iff.1 h
    exact Turn.advances_orBlank hnext fun _ => Turn.advances_rule hnext
  | frames =>
    obtain ⟨⟨t, d⟩, hnext, rfl⟩ := Option.map_eq_some_iff.1 h
    exact Turn.advances_orBlank hnext fun hkind => Turn.advances_anew hnext hkind .frames
  | declarations =>
    obtain ⟨⟨t, d⟩, hnext, rfl⟩ := Option.map_eq_some_iff.1 h
    exact Turn.advances_orBlank hnext fun hkind => Turn.advances_anew hnext hkind .declarations

/-- A loop ends where there is no next token. -/
theorem Place.turn?_eq_none_iff {last : Location} {p : Place} :
    p.turn? last = none ↔ p.cursor.next? = none := by
  obtain ⟨loop, c⟩ := p
  cases loop <;> exact Option.map_eq_none_iff

namespace Place

variable {last : Location} {p q : Place} {turn : Turn p.loop.Entry}

theorem shorter_behind (h : p.turn? last = some turn) :
    turn.behind.rest.length < p.cursor.rest.length :=
  (advances h).behind.shorter

theorem shorter_inside (h : p.turn? last = some turn) (hq : q ∈ turn.inside?) :
    q.cursor.rest.length < p.cursor.rest.length := by
  obtain ⟨d, hd, -, hinside, -⟩ := (advances h).inside q hq
  rw [hinside]
  exact hd.shorter

/-! ## The reader -/

/-- Reads from a place to the end of its row, turn by turn. -/
def read (last : Location) (p : Place) : Reading (List p.loop.Entry) :=
  match _h : p.turn? last with
  | none => return []
  | some (.plain here behind) => do
    let entries ← here
    (entries ++ ·) <$> read last ⟨p.loop, behind⟩
  | some (.entering inside here behind) => do
    let entries ← here (inside.read last)
    (entries ++ ·) <$> read last ⟨p.loop, behind⟩
termination_by p.cursor.rest.length
decreasing_by
  · exact shorter_behind _h
  · exact shorter_inside _h rfl
  · exact shorter_behind _h

/-- How many turns it takes to read from a place to the end of its row, those inside blocks included. -/
def turns (last : Location) (p : Place) : Nat :=
  match _h : p.turn? last with
  | none => 0
  | some (.plain _ behind) => 1 + turns last ⟨p.loop, behind⟩
  | some (.entering inside _ behind) => 1 + inside.turns last + turns last ⟨p.loop, behind⟩
termination_by p.cursor.rest.length
decreasing_by
  · exact shorter_behind _h
  · exact shorter_inside _h rfl
  · exact shorter_behind _h

/-- Every turn has a token of the row to itself. -/
theorem turns_le (last : Location) (p : Place) :
    p.turns last + p.cursor.drain.rest.length ≤ p.cursor.rest.length := by
  fun_induction turns last p with
  | case1 p h =>
    rw [Nat.zero_add, Cursor.drain_of_next?_eq_none (turn?_eq_none_iff.1 h)]
    exact p.cursor.settle_suffix.length_le
  | case2 p here behind h ih =>
    have hahead := (advances h).behind
    have hdrain : behind.drain = p.cursor.drain := hahead.drain
    have hshorter : behind.rest.length < p.cursor.rest.length := hahead.shorter
    rw [← hdrain]
    dsimp only at ih
    omega
  | case3 p inside here behind h ihinside ih =>
    have hahead := (advances h).behind
    obtain ⟨d, hd, hopened, hinside, hbehind⟩ := (advances h).inside inside rfl
    have hdrain : behind.drain = p.cursor.drain := hahead.drain
    -- The turn goes on behind the row inside the block, so that no token is counted for both.
    have hblock : behind.rest.length ≤ inside.cursor.drain.rest.length := by
      have hsuffix := (Cursor.skipContents_suffix hopened).length_le
      rwa [← hinside, ← hbehind] at hsuffix
    have hshorter : inside.cursor.rest.length < p.cursor.rest.length := shorter_inside h rfl
    rw [← hdrain]
    dsimp only at ih
    omega

end Place

end Restyle.Css
