import Restyle.Proofs.Alignment
import Restyle.Proofs.Passages
import Restyle.Proofs.SourcePlaces
import Restyle.Proofs.Turns

/-!
# What is read turn by turn

The readers of a style sheet go through components, which tell where each block ends.  A cursor has tokens
only, but what is left of its row makes a level (`Cursor.level`), and a block that has been opened in front
of it is one that those readers have yet to pass over (`Cursor.skipped`).

A turn reads what they read first on that level, and goes on where they do (`Turn.Follows`).  For rules that
is the statement which is cut off the level (`Turn.cuts_rule`), for declarations the chunk in front of the
next semicolon (`Cursor.declaration_fst`).  So to read turn by turn is to read components
(`Place.Fits.read_eq`).
-/

namespace Restyle.Css

open Component

/-! ## Places in a text -/

theorem Token.Runs.of_suffix {P : Location → Prop} {lo hi : Location} {ts us : List Token}
    (h : Runs P lo ts hi) (hsuffix : us <:+ ts) : ∃ mid, Runs P mid us hi := by
  induction h with
  | nil h =>
    obtain rfl := List.suffix_nil.1 hsuffix
    exact ⟨_, .nil h⟩
  | cons h rest ih =>
    rcases List.suffix_cons_iff.1 hsuffix with rfl | hsuffix
    · exact ⟨_, .cons h rest⟩
    · exact ih hsuffix

/-- Tokens start where the first one does, and no tokens where they end. -/
theorem Token.Runs.start_eq {P : Location → Prop} {lo hi : Location} {ts : List Token}
    (h : Runs P lo ts hi) : (ts.head?.map Token.start).getD hi = lo := by
  cases h <;> rfl

namespace Cursor

variable {css : List Char} {c d e : Cursor} {t : Token}

/-- A cursor in a text. -/
def IsIn (css : List Char) (c : Cursor) : Prop :=
  c.rest <:+ Token.lex Location.start css

theorem IsIn.of_suffix (h : c.IsIn css) (hsuffix : d.rest <:+ c.rest) : d.IsIn css :=
  List.IsSuffix.trans hsuffix h

theorem IsIn.along (h : c.IsIn css) (halong : c.Along d) : d.IsIn css :=
  h.of_suffix halong.suffix

theorem IsIn.mem (h : c.IsIn css) (ht : t ∈ c.rest) : t ∈ Token.lex Location.start css :=
  List.IsSuffix.mem ht h

/-- Behind a token is where it stops. -/
theorem IsIn.place_behind (h : c.IsIn css) (hnext : c.next? = some (t, d)) :
    d.place (Location.start.advance css) = t.stop := by
  obtain ⟨mid, hmid⟩ := (Token.runs_lex rfl (keepsLineEnd_nil css)).of_suffix
    ((suffix_of_next? hnext).trans h)
  cases hmid with
  | cons _ rest => exact rest.start_eq

theorem rest_of_next? (h : c.opened = none) (hnext : c.next? = some (t, d)) :
    c.rest = t :: d.rest := by
  have hrest := (next?_eq_some_iff.1 hnext).1
  rwa [settle_of_opened h] at hrest

theorem place_of_next? {last : Location} (h : c.opened = none) (hnext : c.next? = some (t, d)) :
    c.place last = t.start := by
  rw [place, rest_of_next? h hnext]
  rfl

theorem text_of_next? (h : c.opened = none) (hnext : c.next? = some (t, d)) :
    Scan.between c.rest d.rest = t.text := by
  have hbetween := Scan.between_append [t] d.rest
  rwa [List.singleton_append, ← rest_of_next? h hnext, List.flatMap_singleton] at hbetween

/-- The block that has been opened in front of a cursor, as something to be passed over. -/
def skipped (last : Location) (c : Cursor) : Option Skipped :=
  c.opened.map fun _ => ⟨c.place last, c.lead⟩

theorem skipped_of_opened {last : Location} (h : c.opened = none) : c.skipped last = none := by
  rw [skipped, h]
  rfl

theorem text_skipped (last : Location) (c : Cursor) :
    ((c.skipped last).map Skipped.text).getD [] = c.lead := by
  unfold skipped
  cases hopened : c.opened with
  | none => exact (lead_of_opened hopened).symm
  | some b => rfl

/-- A turn starts at the place where the next thing is to start. -/
theorem startOf_skipped {last : Location} (h : c.next? = some (t, d)) :
    Skipped.startOf (c.skipped last) (Scan.component t d.rest) = c.place last := by
  unfold Skipped.startOf skipped
  cases hopened : c.opened with
  | none =>
    have hrest := (next?_eq_some_iff.1 h).1
    rw [settle_of_opened hopened] at hrest
    rw [Scan.start_component, place, hrest]
    rfl
  | some b => rfl

theorem textOf_skipped {last : Location} (h : c.next? = some (t, d)) (hopens : t.kind.opens? = none) :
    Skipped.textOf (c.skipped last) (.leaf t) = Scan.between c.rest d.rest := by
  have hopened : d.opened = none := (next?_eq_some_iff.1 h).2.2.1.trans hopens
  have hbetween := between_of_next? h
  rw [settle_of_opened hopened, Scan.component_of_opens hopens] at hbetween
  rw [Skipped.textOf, text_skipped, hbetween]

/-! ## At an end -/

/-- A cursor in front of an end: no block has been opened, and neither white space nor a comment comes
next. -/
structure AtEnd (c : Cursor) : Prop where
  opened : c.opened = none
  solid : c.skipBlank = c

theorem atEnd_toEnd {ends : Token.Kind → Bool} (hspace : ends .whiteSpace = false)
    (hcomment : ends .comment = false) (c : Cursor) : (c.toEnd ends).AtEnd := by
  obtain ⟨hopened, -, hend⟩ := toEnd_cases ends c
  refine ⟨hopened, ?_⟩
  rw [skipBlank_of_nextBefore?_eq_none hspace hcomment hend, settle_of_opened hopened]

theorem atEnd_prelude (c : Cursor) : c.prelude.2.AtEnd := by
  rw [prelude_snd]
  exact atEnd_toEnd rfl rfl c

theorem atEnd_selectors (c : Cursor) : c.selectors.2.AtEnd := by
  rw [selectors_snd]
  exact atEnd_toEnd rfl rfl c

end Cursor

/-! ## The end of a block -/

theorem Cursor.endOfRow_cons {barrier : Option Bracket} {bs : List Bracket} {t : Token}
    (h : ¬(bs = [] ∧ t.isBarrier barrier = true)) (ts : List Token) :
    endOfRow barrier bs (t :: ts) = endOfRow barrier (t.nest bs) ts := by
  cases bs with
  | nil =>
    rw [endOfRow, if_neg fun hbarrier => h ⟨rfl, hbarrier⟩]
    cases hopens : t.kind.opens? with
    | none => rw [Token.nest_nil hopens]; rfl
    | some b => rw [Token.nest_of_opens hopens]; rfl
  | cons b bs =>
    rw [endOfRow]
    by_cases hcloses : t.kind.closes? = some b
    · rw [if_pos hcloses, Token.nest_of_closes hcloses]
    · rw [if_neg hcloses]
      cases hopens : t.kind.opens? with
      | some c => rw [Token.nest_of_opens hopens]
      | none =>
        rw [Token.nest_of_stays hopens]
        rintro c ⟨⟩
        exact hcloses

/-- The row inside a block ends in front of the bracket that closes the block. -/
theorem Cursor.endOfRow_enclosed (b : Bracket) (bs : List Bracket) (ts : List Token) :
    endOfRow (some b) bs ts =
      (Token.enclosed b bs ts).closer.toList ++ (Token.enclosed b bs ts).rest := by
  induction ts generalizing bs with
  | nil =>
    rw [endOfRow]
    rfl
  | cons t ts ih =>
    have hbarrier : t.isBarrier (some b) = true ↔ t.kind.closes? = some b := by
      rw [Token.isBarrier, Bool.and_eq_true, beq_iff_eq]
      constructor
      · exact And.right
      · intro hcloses
        rw [hcloses]
        exact ⟨rfl, rfl⟩
    by_cases hcloser : bs = [] ∧ t.kind.closes? = some b
    · obtain ⟨rfl, hcloses⟩ := hcloser
      rw [endOfRow_of_isBarrier (hbarrier.2 hcloses), Token.enclosed_closer hcloses]
      rfl
    · rw [endOfRow_cons fun h => hcloser ⟨h.1, hbarrier.1 h.2⟩, ih, Token.enclosed_cons hcloser]

namespace Cursor

variable {css : List Char} {c d e : Cursor} {t : Token}

/-- The level inside a block is what the block holds. -/
theorem level_nested {b : Bracket} (h : c.opened = some b) :
    c.nested.level = ofTokens (Token.enclosed b [] c.rest).inside := by
  rw [nested, h, level_inside]

theorem rest_drain_nested {b : Bracket} (h : c.opened = some b) : c.nested.drain.rest =
    (Token.enclosed b [] c.rest).closer.toList ++ (Token.enclosed b [] c.rest).rest := by
  rw [nested, h]
  exact endOfRow_enclosed b [] c.rest

theorem rest_skipContents {b : Bracket} (h : c.opened = some b) :
    c.skipContents.rest = (Token.enclosed b [] c.rest).rest := by
  rw [skipContents_eq, settle, h]
  exact Token.passOver_eq_rest b [] c.rest

/-- The end of the text is the end of a row that has a block in it which nothing closes. -/
theorem place_drain_of_open {last : Location} {b : Bracket} (h : c.opened = some b)
    (hopen : (Token.enclosed b [] c.rest).closer = none) : c.drain.place last = last := by
  have hrest : c.drain.rest = [] := by
    rw [← (along_skipContents c).drain, drain_rest, settle_of_opened rfl, rest_skipContents h,
      Token.rest_enclosed_of_closer hopen, endOfRow]
  rw [place, hrest]
  rfl

/-- The row inside a block ends where the bracket stands that closes the block, or with the text. -/
theorem place_drain_nested {last : Location} {b : Bracket} (h : c.opened = some b) :
    c.nested.drain.place last =
      ((Token.enclosed b [] c.rest).closer.map Token.start).getD (c.drain.place last) := by
  rw [place, rest_drain_nested h]
  cases hcloser : (Token.enclosed b [] c.rest).closer with
  | some closer => rfl
  | none =>
    rw [Token.rest_enclosed_of_closer hcloser, place_drain_of_open h hcloser]
    rfl

/-- A block in curly brackets is closed if what stands behind the row inside ends in such a bracket. -/
theorem IsIn.ending_iff (hc : c.IsIn css) (h : c.opened = some .curly) :
    (Scan.between c.nested.drain.rest c.skipContents.rest).getLast? = some '\x7d' ↔
      (Token.enclosed .curly [] c.rest).closer.isSome = true := by
  rw [rest_drain_nested h, rest_skipContents h, Scan.between_append]
  cases hcloser : (Token.enclosed .curly [] c.rest).closer with
  | none => simp
  | some closer =>
    have hmem : closer ∈ c.rest := by
      rw [← Token.enclosed_append .curly [] c.rest, hcloser]
      simp
    have htext := Token.text_of_closingCurly (hc.mem hmem) (Token.kind_of_closer_enclosed hcloser)
    simp [htext]

/-- The block that comes next is the first component of the level. -/
theorem AtEnd.level_of_enter? (h : c.AtEnd) (henter : c.enter? = some d) :
    ∃ t, c.next? = some (t, d) ∧ t.kind = .opening .curly ∧
      c.level = .block t d.nested.level (Token.enclosed .curly [] d.rest).closer :: d.level := by
  obtain ⟨t, hnext, hkind⟩ := enter?_eq_some_iff.1 henter
  rw [h.solid] at hnext
  refine ⟨t, hnext, hkind, ?_⟩
  rw [level_of_next? hnext, Scan.component, hkind, level_nested (opened_of_enter? henter)]
  rfl

/-- Where no block comes next, none is the first component of the level. -/
theorem AtEnd.ofLevel_of_enter? (h : c.AtEnd) (henter : c.enter? = none) (last : Location) :
    Body.ofLevel (c.drain.place last) c.level = (.missing (c.place last), c.level) ∧
      Skipped.ofLevel c.level = (none, c.level) := by
  cases hnext : c.next? with
  | none =>
    rw [level_of_next?_eq_none hnext, drain_of_next?_eq_none hnext, settle_of_opened h.opened]
    exact ⟨rfl, rfl⟩
  | some step =>
    obtain ⟨t, d⟩ := step
    have hkind : t.kind ≠ .opening .curly := by
      intro hkind
      have hsome := enter?_eq_some_iff.2 ⟨t, h.solid.symm ▸ hnext, hkind⟩
      rw [henter] at hsome
      cases hsome
    rw [level_of_next? hnext, Scan.component, place_of_next? h.opened hnext]
    cases t.kind.opens? with
    | none => exact ⟨rfl, rfl⟩
    | some b =>
      dsimp only
      rw [Body.ofLevel, Skipped.ofLevel, if_neg hkind, if_neg hkind]
      exact ⟨rfl, rfl⟩

/-- A block that is refused is the one that the readers of components refuse. -/
theorem AtEnd.ofLevel_skipBlock (h : c.AtEnd) (hc : c.IsIn css) :
    Skipped.ofLevel c.level =
      (c.skipBlock.skipped (Location.start.advance css), c.skipBlock.level) := by
  unfold skipBlock
  cases henter : c.enter? with
  | none =>
    rw [(h.ofLevel_of_enter? henter .start).2, Option.getD_none, skipped_of_opened h.opened]
  | some d =>
    obtain ⟨t, hnext, hkind, hlevel⟩ := h.level_of_enter? henter
    have hopened := opened_of_enter? henter
    have htext : d.lead = d.nested.level.flatMap Component.text ++
        (Token.enclosed .curly [] d.rest).closer.toList.flatMap Token.text := by
      have hbehind : d.settle.rest = (Token.enclosed .curly [] d.rest).rest := by
        rw [← skipContents_eq, rest_skipContents hopened]
      have htokens := Scan.between_append ((Token.enclosed .curly [] d.rest).inside ++
        (Token.enclosed .curly [] d.rest).closer.toList) (Token.enclosed .curly [] d.rest).rest
      rw [Token.enclosed_append, List.flatMap_append] at htokens
      rw [lead, hbehind, htokens, level_nested hopened, flatMap_text, tokens_ofTokens]
    rw [hlevel, Skipped.ofLevel, if_pos hkind, Option.getD_some, skipped, hopened, htext,
      hc.place_behind hnext]
    rfl

end Cursor

/-! ## Declarations of a level -/

namespace Cursor

variable {c d : Cursor} {t : Token}

/-- Behind a component is behind its tokens. -/
theorem tokens_of_next? (h : c.opened = none) (hnext : c.next? = some (t, d)) :
    (Scan.component t d.rest).tokens ++ d.settle.rest = c.rest := by
  rw [rest_of_next? h hnext, ← Scan.tokens_component t d.rest, settle,
    (next?_eq_some_iff.1 hnext).2.2.1]

/-- Where a declaration ends, it names no property. -/
theorem namedBy_of_nextBefore?_eq_none (h : c.nextBefore? endsValue = none) (text : List Char) :
    Scan.namedBy text c.level = none := by
  have hfront := (level_of_nextBefore?_eq_none isSemicolon_ofFirst h).1
  rw [← Scan.namedBy_takeWhile]
  exact congrArg (Scan.namedBy text) hfront

/-- The property that is read is the one that the level names. -/
theorem property_fst (done : List Token) (h : c.opened = none) :
    (c.property (done ++ c.rest)).1 = Scan.namedBy (done.flatMap Token.text) c.level := by
  -- Where the reading started stays the same, and `done` grows by one component at a time.
  generalize hstart : done ++ c.rest = start
  fun_induction property start c generalizing done with
  | case1 c hend => exact (namedBy_of_nextBefore?_eq_none hend _).symm
  | case2 c t d hnext hcolon =>
    have hpart : (Scan.isNamePart t || t.kind == .opening .square) = false := by
      rw [Bool.eq_false_iff.2 (Scan.not_isNamePart (.inr hcolon)), hcolon]
      rfl
    rw [level_of_next? (nextBefore?_eq_some_iff.1 hnext).1, Scan.namedBy_component, hpart,
      if_neg Bool.false_ne_true, if_pos hcolon, ← hstart, Scan.between_append]
  | case3 c t d hnext hcolon hpart ih =>
    have hstep := (nextBefore?_eq_some_iff.1 hnext).1
    have hopens := Scan.opens?_of_isNamePart hpart
    have hd : d.opened = none := (next?_eq_some_iff.1 hstep).2.2.1.trans hopens
    rw [level_of_next? hstep, Scan.namedBy_component, hpart, Bool.true_or, if_pos rfl,
      Component.text, ← List.flatMap_append]
    refine ih _ hd ?_
    rw [← hstart, ← tokens_of_next? h hstep, settle_of_opened hd, List.append_assoc]
  | case4 c t d hnext hcolon hpart hsquare ih =>
    have hstep := (nextBefore?_eq_some_iff.1 hnext).1
    rw [level_of_next? hstep, Scan.namedBy_component, hsquare, beq_self_eq_true, Bool.or_true,
      if_pos rfl, Component.text, ← List.flatMap_append, ← level_settle d, ← skipContents_eq]
    refine ih _ rfl ?_
    rw [← hstart, ← tokens_of_next? h hstep, List.append_assoc, skipContents_eq]
  | case5 c t d hnext hcolon hpart hsquare =>
    have hpart' : (Scan.isNamePart t || t.kind == .opening .square) = false := by
      rw [Bool.eq_false_iff.2 hpart, beq_eq_false_iff_ne.2 hsquare]
      rfl
    rw [level_of_next? (nextBefore?_eq_some_iff.1 hnext).1, Scan.namedBy_component, hpart',
      if_neg Bool.false_ne_true, if_neg hcolon]

/-- Behind the colon stands the value. -/
theorem property_snd {start : List Token} {name : String} (h : (c.property start).1 = some name) :
    (c.property start).2.opened = none ∧
      (c.property start).2.level = (c.level.dropWhile Declaration.isPropertyPart).tail := by
  fun_induction property start c with
  | case1 c hend => cases h
  | case2 c t d hnext hcolon =>
    have hstep := (nextBefore?_eq_some_iff.1 hnext).1
    have hpart : Declaration.isPropertyPart (Scan.component t d.rest) = false := by
      rw [Scan.isPropertyPart_component, Bool.eq_false_iff.2 (Scan.not_isNamePart (.inr hcolon)),
        hcolon]
      rfl
    rw [level_of_next? hstep, List.dropWhile_cons, hpart, (next?_eq_some_iff.1 hstep).2.2.1, hcolon]
    exact ⟨rfl, rfl⟩
  | case3 c t d hnext hcolon hpart ih =>
    rw [level_of_next? (nextBefore?_eq_some_iff.1 hnext).1, List.dropWhile_cons,
      if_pos (Scan.isPropertyPart_of_isNamePart hpart _)]
    exact ih h
  | case4 c t d hnext hcolon hpart hsquare ih =>
    rw [level_of_next? (nextBefore?_eq_some_iff.1 hnext).1, List.dropWhile_cons,
      if_pos (Scan.isPropertyPart_of_square hsquare _), ← level_settle d, ← skipContents_eq]
    exact ih h
  | case5 => cases h

/-- A declaration is read as the chunk of the level is. -/
theorem declaration_fst (h : c.opened = none) :
    c.declaration.1 = Declaration.ofComponents? (c.level.takeWhile Scan.goesOn) := by
  have hname := property_fst [] h
  have hvalue : ∀ name, (c.property c.rest).1 = some name → _ := fun name => property_snd
  rw [List.nil_append, List.flatMap_nil] at hname
  rw [Scan.ofComponents?_eq, Scan.namedBy_takeWhile]
  unfold declaration
  generalize c.property c.rest = stop at hname hvalue ⊢
  rcases stop with ⟨_ | name, d⟩
  · rw [← hname]
    rfl
  · obtain ⟨hopened, hlevel⟩ := hvalue name rfl
    rw [← hname, Option.map_some, Scan.tail_dropWhile_takeWhile hname.symm, ← hlevel]
    dsimp only
    rw [collect_whole rfl rfl isSemicolon_ofFirst, lead_of_opened hopened, textBehind_nil]
    simp [String.join, trimmedText]
    rfl

/-- A declaration is left behind its chunk and the semicolon. -/
theorem declaration_behind (c : Cursor) : c.declaration.2.opened = none ∧
    c.declaration.2.level = (c.level.dropWhile Scan.goesOn).drop 1 := by
  obtain ⟨hopened, -, hend⟩ := toEnd_cases endsValue c
  have hlevel : (c.toEnd endsValue).level = c.level.dropWhile Scan.goesOn :=
    level_toEnd isSemicolon_ofFirst c
  rw [declaration_snd, ← hlevel, skipSemicolon]
  cases hnext : (c.toEnd endsValue).next? with
  | none =>
    rw [level_of_next?_eq_none hnext]
    exact ⟨hopened, rfl⟩
  | some step =>
    obtain ⟨t, d⟩ := step
    have hkind : t.kind = .semicolon := by
      rw [nextBefore?, hnext, Option.filter_some] at hend
      simpa [endsValue] using hend
    dsimp only
    rw [if_pos hkind, level_of_next? hnext, (next?_eq_some_iff.1 hnext).2.2.1, hkind]
    exact ⟨rfl, rfl⟩

end Cursor

/-! ## Turns and readers of components -/

/-- Reads a level, with what is to be passed over in front of it, to its end at some place. -/
def Loop.readLevel (loop : Loop) (stop : Location) (skipped : Option Skipped)
    (cs : List Component) : Reading (List loop.Entry) :=
  match loop with
  | .rules => readRules stop skipped cs
  | .frames => readFrames stop skipped cs
  | .declarations => readDeclarations cs

/-- What the reader of components reads that stands where a loop does. -/
def Place.readLevel (last : Location) (p : Place) : Reading (List p.loop.Entry) :=
  p.loop.readLevel (p.cursor.drain.place last) (p.cursor.skipped last) p.cursor.level

namespace Turn

variable {ε : Type}

/-- What a turn reads, given what is read inside the block that it may enter. -/
def run (read : (p : Place) → Reading (List p.loop.Entry)) : Turn ε → Reading (List ε)
  | .plain here _ => here
  | .entering inside here _ => here (read inside)

/-- A turn reads what a reader of components reads of one entry, and goes on where that does. -/
structure Follows (last : Location) (turn : Turn ε) (here : Reading (List ε))
    (skipped : Option Skipped) (rest : List Component) : Prop where
  run : turn.run (Place.readLevel last) = here
  skipped : turn.behind.skipped last = skipped
  level : turn.behind.level = rest

variable {css : List Char} {c d : Cursor} {t : Token}

/-- A turn that ends where no block has been opened. -/
theorem follows_plain {last : Location} {here : Reading (List ε)} (h : c.opened = none) :
    Follows last (plain here c) here none c.level :=
  ⟨rfl, Cursor.skipped_of_opened h, rfl⟩

/-- What is inside a block is read to the closing bracket, or else to the end of the row around. -/
theorem readLevel_nested {last : Location} {b : Bracket} (h : d.opened = some b) (loop : Loop) :
    Place.readLevel last ⟨loop, d.nested⟩ =
      loop.readLevel (((Token.enclosed b [] d.rest).closer.map Token.start).getD
        (d.drain.place last)) none d.nested.level := by
  rw [Place.readLevel, Cursor.place_drain_nested h, Cursor.skipped_of_opened rfl]

/-- A body is read as the one at the front of the level. -/
theorem follows_body (h : c.AtEnd) (hc : c.IsIn css) (construct : Construct) (loop : Loop)
    (give : Option (List loop.Entry) → List ε) {last : Location}
    (hlast : last = Location.start.advance css) {next : Body × List Component}
    (hnext : Body.ofLevel (c.drain.place last) c.level = next) :
    Follows last (body last construct loop c give)
      (next.1.read construct (loop.readLevel next.1.stop none next.1.contents) >>= fun entries =>
        pure (give entries)) none next.2 := by
  subst hlast hnext
  unfold body
  cases henter : c.enter? with
  | none =>
    rw [(h.ofLevel_of_enter? henter _).1]
    dsimp only
    rw [Body.read, bind_assoc]
    simp only [pure_bind]
    exact follows_plain h.opened
  | some d =>
    obtain ⟨t, hnext, hkind, hlevel⟩ := h.level_of_enter? henter
    have hopened := Cursor.opened_of_enter? henter
    have hd : d.IsIn css := hc.along (Cursor.ahead_of_enter? henter).toAlong
    have hstop : c.drain = d.drain := (Cursor.ahead_of_enter? henter).drain.symm
    rw [hlevel, Body.ofLevel, if_pos hkind, hstop]
    refine ⟨?_, Cursor.skipped_of_opened rfl, ?_⟩
    · dsimp only [run, Body.stop, Body.contents]
      rw [readLevel_nested hopened, Body.read_block, bind_assoc]
      refine bind_congr fun entries => ?_
      -- The text behind the row inside shows whether a bracket closes the block.
      have hending := hd.ending_iff hopened
      cases hcloser : (Token.enclosed .curly [] d.rest).closer with
      | some closer =>
        rw [hcloser] at hending
        rw [if_neg fun hne => hne (hending.2 rfl)]
        simp
      | none =>
        have hplace : d.skipContents.place (Location.start.advance css) =
            Location.start.advance css := by
          rw [Cursor.place, Cursor.rest_skipContents hopened, Token.rest_enclosed_of_closer hcloser]
          rfl
        rw [hcloser] at hending
        rw [if_pos fun heq => Bool.false_ne_true (hending.1 heq), hplace,
          Cursor.place_drain_of_open hopened hcloser]
        simp
    · dsimp only [behind]
      rw [Cursor.skipContents_eq, Cursor.level_settle]

/-- A block that is refused is the one at the front of the level. -/
theorem follows_skipBlock (h : c.AtEnd) (hc : c.IsIn css) (here : Reading (List ε)) :
    Follows (Location.start.advance css) (plain here c.skipBlock) here (Skipped.ofLevel c.level).1
      (Skipped.ofLevel c.level).2 := by
  rw [h.ofLevel_skipBlock hc]
  exact ⟨rfl, rfl, rfl⟩

/-- What stands in front of a body is read as the selectors of the level, and the body as the one behind
them. -/
theorem follows_headed (hc : c.IsIn css) (hnext : c.next? = some (t, d)) (ht : t.kind ≠ .comment)
    (make : List String → List DeclarationEntry → ε) {last : Location}
    (hlast : last = Location.start.advance css) {selectors : List String}
    (hselectors : selectorsOf (c.skipped last) (untilCurly c.level) = selectors)
    {refused : Option Skipped × List Component}
    (hrefused : Skipped.ofLevel (fromCurly c.level) = refused) {next : Body × List Component}
    (hbody : Body.ofLevel (c.drain.place last) (fromCurly c.level) = next) :
    if selectors.all (· == "") then
      Follows last (headed last make c) (do
        Reading.report .noSelector (c.place last)
        return []) refused.1 refused.2
    else
      Follows last (headed last make c) (do
        let declarations ← next.1.read .plain (readDeclarations next.1.contents)
        return [make selectors (declarations.getD [])]) none next.2 := by
  subst hlast hselectors hrefused hbody
  have hcomment : ∀ x ∈ (untilCurly c.level).head?, x.isComment = true →
      c.skipped (Location.start.advance css) = none := by
    intro x hx hleaf
    have hfirst : x = Scan.component t d.rest := by
      rw [untilCurly, Cursor.level_of_next? hnext, List.takeWhile_cons] at hx
      split at hx
      · exact (Option.some.inj hx).symm
      · cases hx
    rw [hfirst, isComment, Scan.isLeaf_component rfl, beq_iff_eq] at hleaf
    exact absurd hleaf ht
  obtain ⟨htexts, hlevel⟩ := Cursor.selectors_level (Cursor.text_skipped _ c) hcomment
  have hin : c.selectors.2.IsIn css := hc.along c.along_selectors
  unfold headed
  dsimp only
  rw [← htexts, ← hlevel, ← c.along_selectors.drain]
  split
  · exact follows_skipBlock c.atEnd_selectors hin _
  · exact follows_body c.atEnd_selectors hin _ _ _ rfl rfl

/-- Where a block comes first, there are no selectors. -/
theorem isCurly_or_all (skipped : Option Skipped) (x : Component) (xs : List Component) :
    (x.isCurly || (selectorsOf skipped (untilCurly (x :: xs))).all (· == "")) =
      (selectorsOf skipped (untilCurly (x :: xs))).all (· == "") := by
  cases hcurly : x.isCurly with
  | false => rfl
  | true =>
    have hfront : untilCurly (x :: xs) = [] := by
      rw [untilCurly, List.takeWhile_cons, hcurly]
      rfl
    rw [hfront]
    cases skipped <;> rfl

/-- A frame with something in front of it that is neither passed over nor a comment. -/
theorem readFrames_headed {x : Component} (hspace : (x.isWhiteSpace || x.isSemicolon) = false)
    (hcomment : x.isComment = false) (stop : Location) (skipped : Option Skipped)
    (xs : List Component) : readFrames stop skipped (x :: xs) =
      if (selectorsOf skipped (untilCurly (x :: xs))).all (· == "") then
        (do
          Reading.report .noSelector (Skipped.startOf skipped x)
          readFrames stop (Skipped.ofLevel (fromCurly (x :: xs))).1
            (Skipped.ofLevel (fromCurly (x :: xs))).2)
      else
        (do
          let frame ← readFrame (selectorsOf skipped (untilCurly (x :: xs)))
            (Body.ofLevel stop (fromCurly (x :: xs))).1
          (FrameEntry.frame frame :: ·) <$>
            readFrames stop none (Body.ofLevel stop (fromCurly (x :: xs))).2) := by
  rw [readFrames, hspace, hcomment, if_neg Bool.false_ne_true, if_neg Bool.false_ne_true]
  simp only [isCurly_or_all]
  split <;> rfl

/-- A statement without a block is read as the one of the level. -/
theorem statement?_level (h : c.opened = none) :
    AtRule.statement? c.level = c.statement?.map fun s => (s.1, s.2.level) := by
  obtain ⟨htext, hlevel⟩ := Cursor.prelude_level h
  unfold AtRule.statement? Cursor.statement?
  dsimp only
  rw [← htext, ← hlevel, Cursor.afterEnd?, Cursor.nextSolid?, c.atEnd_prelude.solid]
  cases hnext : c.prelude.2.next? with
  | none =>
    have hend := Cursor.level_of_next?_eq_none hnext
    rw [hend]
    split
    · rfl
    · simp [AtRule.afterEnd?, hend]
  | some step =>
    obtain ⟨t, d⟩ := step
    rw [Cursor.level_of_next? hnext, AtRule.afterEnd?, isSemicolon, Scan.isLeaf_component rfl]
    split
    · rfl
    · by_cases hkind : t.kind = .semicolon <;> simp [hkind]

theorem opened_of_statement? {text : String} (h : c.statement? = some (text, d)) :
    d.opened = none := by
  unfold Cursor.statement? at h
  dsimp only at h
  split at h
  · cases h
  · obtain ⟨e, hend, heq⟩ := Option.map_eq_some_iff.1 h
    obtain ⟨-, rfl⟩ := Prod.mk.inj heq
    unfold Cursor.afterEnd? at hend
    split at hend
    · obtain rfl := Option.some.inj hend
      rfl
    · next t e' hnext =>
      obtain ⟨hkind, he⟩ := Option.ite_none_right_eq_some.1 hend
      obtain rfl := Option.some.inj he
      rw [(Cursor.next?_eq_some_iff.1 hnext).2.2.1, hkind]
      rfl

/-- What cuts a statement off a level tells of a turn what it reads and where it goes on. -/
def Cuts (last : Location) (turn : Turn Rule) (cut : Statement.Cut) : Prop :=
  Follows last turn cut.statement.read cut.skipped cut.rest

section

variable (hc : c.IsIn css) (hnext : c.next? = some (t, d)) {last : Location}
  (hlast : last = Location.start.advance css) {stop : Location} (hstop : c.drain.place last = stop)

include hc hnext hlast hstop

/-- A style rule is cut off the level. -/
theorem cuts_headed (ht : t.kind ≠ .comment) : Cuts last (headed last Rule.style c)
    (Statement.cutStyle stop (c.skipped last) (Scan.component t d.rest) d.level) := by
  have hlevel := Cursor.level_of_next? hnext
  have hfollows := follows_headed hc hnext ht Rule.style hlast rfl rfl rfl
  rw [hstop] at hfollows
  unfold Cuts Statement.cutStyle
  dsimp only
  rw [isCurly_or_all, ← hlevel, Cursor.startOf_skipped hnext]
  split at hfollows
  · next hall =>
    rw [if_pos hall]
    exact hfollows
  · next hall =>
    rw [if_neg hall]
    exact hfollows

theorem cuts_group (hd : d.opened = none) (head : String → Group) :
    Cuts last (group last head d) (Statement.cutGroup stop head d.level) := by
  obtain ⟨htext, hlevel⟩ := Cursor.prelude_level hd
  have hin : d.prelude.2.IsIn css :=
    hc.along ((Cursor.ahead_of_next? hnext).toAlong.trans d.along_prelude)
  have hdrain : d.prelude.2.drain = c.drain :=
    ((Cursor.ahead_of_next? hnext).toAlong.trans d.along_prelude).drain
  unfold Cuts group Statement.cutGroup
  rw [← htext, ← hlevel, ← hstop, ← hdrain]
  exact follows_body d.atEnd_prelude hin _ _ _ hlast rfl

theorem cuts_keyframes (hd : d.opened = none) (vendor : Option String) {keyword : Token}
    (hkeyword : AtRule.ofKeyword? keyword.keyword = some (.keyframes vendor)) :
    Cuts last (atRule last keyword c d)
      (Statement.cutKeyframes stop vendor (d.place last) d.level) := by
  obtain ⟨htext, hlevel⟩ := Cursor.prelude_level hd
  have halong := (Cursor.ahead_of_next? hnext).toAlong.trans d.along_prelude
  unfold Cuts atRule Statement.cutKeyframes
  rw [hkeyword]
  dsimp only
  rw [← htext, ← hlevel, ← hstop, ← halong.drain]
  split
  · subst hlast
    exact follows_skipBlock d.atEnd_prelude (hc.along halong) _
  · exact follows_body d.atEnd_prelude (hc.along halong) _ _ _ hlast rfl

/-- An at-rule is cut off the level. -/
theorem cuts_atRule (ht : t.kind = .atKeyword) : Cuts last (atRule last t c d)
    (Statement.cutAtRule stop (c.skipped last) t (.leaf t) d.level) := by
  have hopens : t.kind.opens? = none := by
    rw [ht]
    rfl
  have hd : d.opened = none := (Cursor.next?_eq_some_iff.1 hnext).2.2.1.trans hopens
  have hplace : d.place last = t.stop := by
    rw [hlast]
    exact hc.place_behind hnext
  have halong := (Cursor.ahead_of_next? hnext).toAlong
  have hstyle := cuts_headed hc hnext hlast hstop (by rw [ht]; exact nofun)
  rw [Scan.component_of_opens hopens] at hstyle
  have hgroup := cuts_group hc hnext hlast hstop hd
  unfold Statement.cutAtRule
  cases hkeyword : AtRule.ofKeyword? t.keyword with
  | none =>
    unfold atRule
    rw [hkeyword]
    exact hstyle
  | some form =>
    cases form with
    | keyframes vendor =>
      rw [← hplace]
      exact cuts_keyframes hc hnext hlast hstop hd vendor hkeyword
    | media | supports | document vendor | host =>
      unfold atRule
      rw [hkeyword]
      exact hgroup _
    | page =>
      have hlead : ((none : Option Skipped).map Skipped.text).getD [] = d.lead :=
        (Cursor.lead_of_opened hd).symm
      obtain ⟨htext, hlevel⟩ := Cursor.selectors_level hlead fun _ _ _ => rfl
      have hin := halong.trans d.along_selectors
      unfold Cuts atRule
      rw [hkeyword]
      dsimp only
      rw [← htext, ← hlevel, ← hstop, ← hin.drain]
      exact follows_body d.atEnd_selectors (hc.along hin) _ _ _ hlast rfl
    | fontFace =>
      obtain ⟨-, hlevel⟩ := Cursor.prelude_level hd
      have hin := halong.trans d.along_prelude
      unfold Cuts atRule
      rw [hkeyword]
      dsimp only
      rw [← hlevel, ← hstop, ← hin.drain]
      exact follows_body d.atEnd_prelude (hc.along hin) _ _ _ hlast rfl
    | customMedia =>
      have hstatement := statement?_level hd
      unfold Cuts atRule
      rw [hkeyword, hstatement]
      cases hs : d.statement? with
      | none => exact hstyle
      | some s =>
        dsimp only [Option.map_some, Option.bind_some]
        cases AtRule.customMedia? s.1 with
        | none => exact hstyle
        | some rule => exact follows_plain (opened_of_statement? hs)
    | directive directive =>
      have hstatement := statement?_level hd
      unfold Cuts atRule
      rw [hkeyword, hstatement]
      cases hs : d.statement? with
      | none => exact hstyle
      | some s => exact follows_plain (opened_of_statement? hs)

/-- A rule is cut off the level, or a comment or what says nothing. -/
theorem cuts_rule : Cuts last (orBlank last Rule.comment (rule last c) c t d)
    (Statement.cut stop (c.skipped last) (Scan.component t d.rest) d.level) := by
  have hopened := (Cursor.next?_eq_some_iff.1 hnext).2.2.1
  have hstyle := fun ht => cuts_headed hc hnext hlast hstop ht
  have hat := fun ht => cuts_atRule hc hnext hlast hstop ht
  cases hopens : t.kind.opens? with
  | some b =>
    have hcut := hstyle (Token.Kind.ne_of_opens? hopens rfl)
    rw [Scan.component, hopens] at hcut ⊢
    cases hkind : t.kind with
    | function | opening b =>
      simp only [Statement.cut, orBlank, rule, hkind]
      exact hcut
    | _ =>
      rw [hkind] at hopens
      cases hopens
  | none =>
    have hd : d.opened = none := hopened.trans hopens
    have htext : Skipped.textOf (c.skipped last) (.leaf t) = Scan.between c.rest d.rest :=
      Cursor.textOf_skipped hnext hopens
    have hstart : Skipped.startOf (c.skipped last) (Scan.component t d.rest) = c.place last :=
      Cursor.startOf_skipped hnext
    rw [Scan.component_of_opens hopens] at hstart hstyle ⊢
    cases hkind : t.kind with
    | whiteSpace | semicolon | openMark | closeMark =>
      simp only [Statement.cut, orBlank, rule, hkind]
      exact follows_plain hd
    | comment =>
      simp only [Statement.cut, orBlank, hkind]
      rw [htext, hstart]
      exact follows_plain hd
    | atKeyword =>
      simp only [Statement.cut, orBlank, rule, hkind]
      exact hat hkind
    | closing b =>
      cases b with
      | curly =>
        simp only [Statement.cut, orBlank, rule, hkind]
        rw [hstart]
        exact follows_plain hd
      | _ =>
        simp only [Statement.cut, orBlank, rule, hkind]
        exact hstyle (by rw [hkind]; rintro ⟨⟩)
    | function | opening b =>
      rw [hkind] at hopens
      cases hopens
    | _ =>
      simp only [Statement.cut, orBlank, rule, hkind]
      exact hstyle (by rw [hkind]; rintro ⟨⟩)

end

/-- What is left behind a turn is read as the level that it goes on with. -/
theorem Follows.readLevel_behind {last : Location} {loop : Loop} {turn : Turn loop.Entry}
    {here : Reading (List loop.Entry)} {skipped : Option Skipped} {rest : List Component}
    (h : Follows last turn here skipped rest) (halong : c.Along turn.behind) :
    Place.readLevel last ⟨loop, turn.behind⟩ =
      loop.readLevel (c.drain.place last) skipped rest := by
  rw [Place.readLevel, h.skipped, h.level, halong.drain]

/-- A turn reads what a reader of components reads first, and goes on where that does. -/
def Reads (last : Location) (loop : Loop) (c : Cursor) (turn : Turn loop.Entry) : Prop :=
  Place.readLevel last ⟨loop, c⟩ = turn.run (Place.readLevel last) >>= fun entries =>
    (entries ++ ·) <$> Place.readLevel last ⟨loop, turn.behind⟩

/-- A turn that reads nothing leaves what there is to read. -/
theorem reads_gap {last : Location} {loop : Loop}
    (h : Place.readLevel last ⟨loop, c⟩ = Place.readLevel last ⟨loop, d⟩) :
    Reads last loop c (plain (return []) d) := by
  unfold Reads
  rw [h, run, pure_bind]
  exact (id_map _).symm

theorem Follows.reads {last : Location} {loop : Loop} {turn : Turn loop.Entry}
    {here : Reading (List loop.Entry)} {skipped : Option Skipped} {rest : List Component}
    (h : Follows last turn here skipped rest) (halong : c.Along turn.behind)
    (hlevel : Place.readLevel last ⟨loop, c⟩ = here >>= fun entries =>
      (entries ++ ·) <$> loop.readLevel (c.drain.place last) skipped rest) :
    Reads last loop c turn := by
  unfold Reads
  rw [h.readLevel_behind halong, h.run]
  exact hlevel

section

variable (hc : c.IsIn css) (hnext : c.next? = some (t, d)) {last : Location}
  (hlast : last = Location.start.advance css)

include hc hnext hlast

theorem reads_rule (halong : c.Along (orBlank last Rule.comment (rule last c) c t d).behind) :
    Reads last .rules c (orBlank last Rule.comment (rule last c) c t d) := by
  have hcut : Follows last _ _ _ _ := cuts_rule hc hnext hlast rfl
  refine hcut.reads halong ?_
  have hcons := readRules_cons (c.drain.place last) (c.skipped last) (Scan.component t d.rest) d.level
  rw [← Cursor.level_of_next? hnext] at hcons
  exact hcons

/-- A frame is read as the one at the front of the level. -/
theorem reads_headed (hgap : ¬(t.kind = .whiteSpace ∨ t.kind = .semicolon)) (ht : t.kind ≠ .comment) :
    Reads last .frames c (headed last (fun moments ds => FrameEntry.frame ⟨moments, ds⟩) c) := by
  have hadvances : Advances c (headed last (fun moments ds => FrameEntry.frame ⟨moments, ds⟩) c) :=
    advances_headed hnext
  have hfollows := follows_headed hc hnext ht (fun moments ds => FrameEntry.frame ⟨moments, ds⟩)
    hlast rfl rfl rfl
  have hspace : ((Scan.component t d.rest).isWhiteSpace || (Scan.component t d.rest).isSemicolon) =
      false := by
    rw [isWhiteSpace, isSemicolon, Scan.isLeaf_component rfl, Scan.isLeaf_component rfl]
    simpa [not_or] using hgap
  have hleaf : (Scan.component t d.rest).isComment = false := by
    rw [isComment, Scan.isLeaf_component rfl, beq_eq_false_iff_ne]
    exact ht
  have hread := readFrames_headed hspace hleaf (c.drain.place last) (c.skipped last) d.level
  rw [← Cursor.level_of_next? hnext, Cursor.startOf_skipped hnext] at hread
  split at hfollows
  · next hall =>
    refine hfollows.reads hadvances.behind.toAlong ?_
    rw [if_pos hall] at hread
    rw [bind_assoc]
    simp only [pure_bind, List.nil_append, id_map']
    exact hread
  · next hall =>
    refine hfollows.reads hadvances.behind.toAlong ?_
    rw [if_neg hall, readFrame, bind_assoc] at hread
    rw [bind_assoc]
    simp only [pure_bind] at hread ⊢
    exact hread

/-- A frame is read off the level, or a comment or what says nothing. -/
theorem reads_frame : Reads last .frames c
    (orBlank last FrameEntry.comment (fun _ _ => Loop.frames.anew last c) c t d) := by
  have hlevel := Cursor.level_of_next? hnext
  have hbehind := (Cursor.ahead_of_next? hnext).toAlong
  have hopened := (Cursor.next?_eq_some_iff.1 hnext).2.2.1
  have hspace : ((Scan.component t d.rest).isWhiteSpace || (Scan.component t d.rest).isSemicolon) =
      decide (t.kind = .whiteSpace ∨ t.kind = .semicolon) := by
    rw [isWhiteSpace, isSemicolon, Scan.isLeaf_component rfl, Scan.isLeaf_component rfl,
      Bool.decide_or]
    rfl
  unfold orBlank
  split
  · next hgap =>
    have hd : d.opened = none := by
      rw [hopened]
      rcases hgap with hkind | hkind <;> rw [hkind] <;> rfl
    refine reads_gap ?_
    rw [Place.readLevel, Place.readLevel, Cursor.skipped_of_opened hd, hbehind.drain,
      Loop.readLevel, hlevel, readFrames, hspace, decide_eq_true hgap, if_pos rfl]
    rfl
  · next hgap =>
    split
    · next hcomment =>
      have hopens : t.kind.opens? = none := by
        rw [hcomment]
        rfl
      have hfollows : ∀ here : Reading (List FrameEntry),
          Follows last (plain here d) here none d.level := fun _ => follows_plain (hopened.trans hopens)
      refine (hfollows _).reads hbehind ?_
      have hleaf : (Scan.component t d.rest).isComment = true := by
        rw [isComment, Scan.isLeaf_component rfl, beq_iff_eq]
        exact hcomment
      have htext : Skipped.textOf (c.skipped last) (.leaf t) = Scan.between c.rest d.rest :=
        Cursor.textOf_skipped hnext hopens
      have hstart : Skipped.startOf (c.skipped last) (Scan.component t d.rest) = c.place last :=
        Cursor.startOf_skipped hnext
      rw [Place.readLevel, Loop.readLevel, hlevel, readFrames, hspace, decide_eq_false hgap,
        if_neg Bool.false_ne_true, hleaf, if_pos rfl, bind_assoc, hstart]
      rw [Scan.component_of_opens hopens, htext, text_leaf]
      simp only [pure_bind]
      rfl
    · next hcomment => exact reads_headed hc hnext hlast hgap hcomment

end

/-- A declaration is read as the chunk at the front of the level. -/
theorem reads_chunk (hnext : c.next? = some (t, d)) (hopened : c.opened = none)
    (hgap : ¬(t.kind = .whiteSpace ∨ t.kind = .semicolon)) (hcomment : t.kind ≠ .comment) :
    Reads last .declarations c (declaration last c) := by
  have hgoesOn : Scan.goesOn (Scan.component t d.rest) = true :=
    (Scan.goesOn_component t d.rest).2 fun hkind => hgap (.inr hkind)
  have hspace : ¬(Scan.component t d.rest).isWhiteSpace = true := by
    rw [isWhiteSpace, Scan.isLeaf_component rfl, beq_iff_eq]
    exact fun hkind => hgap (.inl hkind)
  have hleaf : ¬(Scan.component t d.rest).isComment = true := by
    rw [isComment, Scan.isLeaf_component rfl, beq_iff_eq]
    exact hcomment
  have hchunk : readChunk (c.level.takeWhile Scan.goesOn) =
      (declaration last c).run (Place.readLevel last) := by
    rw [declaration, run, Cursor.declaration_fst hopened, Cursor.place_of_next? hopened hnext,
      ← Scan.start_component t d.rest, Cursor.level_of_next? hnext, List.takeWhile_cons,
      if_pos hgoesOn, readChunk]
    exact (if_neg hspace).trans (if_neg hleaf)
  have hread := Scan.readDeclarations_eq c.level
  rw [hchunk, ← (Cursor.declaration_behind c).2] at hread
  exact hread

/-- A declaration is read off the level, or a comment or what says nothing. -/
theorem reads_declaration (hnext : c.next? = some (t, d)) (hopened : c.opened = none) :
    Reads last .declarations c
      (orBlank last DeclarationEntry.comment (fun _ _ => Loop.declarations.anew last c) c t d) := by
  have hlevel := Cursor.level_of_next? hnext
  unfold orBlank
  split
  · next hgap =>
    have hskip : (Scan.component t d.rest).isWhiteSpace = true ∨
        (Scan.component t d.rest).isSemicolon = true := by
      rw [isWhiteSpace, isSemicolon, Scan.isLeaf_component rfl, Scan.isLeaf_component rfl]
      exact hgap.imp beq_iff_eq.2 beq_iff_eq.2
    refine reads_gap ?_
    rw [Place.readLevel, Loop.readLevel, hlevel, Scan.readDeclarations_skip hskip]
    rfl
  · next hgap =>
    split
    · next hcomment =>
      have hopens : t.kind.opens? = none := by
        rw [hcomment]
        rfl
      unfold Reads
      rw [Place.readLevel, Loop.readLevel, hlevel, Scan.component_of_opens hopens,
        Scan.readDeclarations_comment hcomment, Cursor.place_of_next? hopened hnext,
        Cursor.text_of_next? hopened hnext, run, bind_assoc]
      simp only [pure_bind]
      rfl
    · next hcomment => exact reads_chunk hnext hopened hgap hcomment

end Turn

/-! ## The reader and the readers of components -/

namespace Place

variable {css : List Char} {p q : Place} {turn : Turn p.loop.Entry} {last : Location}

/-- A place in a text.  In front of a turn of declarations no block has been opened. -/
structure Fits (css : List Char) (p : Place) : Prop where
  isIn : p.cursor.IsIn css
  opened : p.loop = .declarations → p.cursor.opened = none

theorem Fits.behind (hp : p.Fits css) (h : p.turn? last = some turn) :
    Fits css ⟨p.loop, turn.behind⟩ where
  isIn := hp.isIn.along (advances h).behind.toAlong
  opened hloop := by
    obtain ⟨loop, c⟩ := p
    subst hloop
    obtain ⟨⟨t, d⟩, hnext, rfl⟩ := Option.map_eq_some_iff.1 h
    have hopened := (Cursor.next?_eq_some_iff.1 hnext).2.2.1
    dsimp only [Turn.orBlank]
    split
    · next hgap =>
      rw [Turn.behind, hopened]
      rcases hgap with hkind | hkind <;> rw [hkind] <;> rfl
    · split
      · next hcomment =>
        rw [Turn.behind, hopened, hcomment]
        rfl
      · exact c.declaration_behind.1

theorem Fits.inside (hp : p.Fits css) (h : p.turn? last = some turn) (hq : q ∈ turn.inside?) :
    q.Fits css := by
  obtain ⟨d, hd, -, hinside, -⟩ := (advances h).inside q hq
  refine ⟨?_, fun _ => ?_⟩
  · rw [hinside]
    exact hp.isIn.of_suffix hd.suffix
  · rw [hinside]
    rfl

/-- A turn reads what a reader of components reads there first. -/
theorem Fits.reads (hp : p.Fits css) (hlast : last = Location.start.advance css)
    (h : p.turn? last = some turn) : Turn.Reads last p.loop p.cursor turn := by
  have halong := (advances h).behind.toAlong
  obtain ⟨loop, c⟩ := p
  cases loop with
  | rules =>
    obtain ⟨⟨t, d⟩, hnext, rfl⟩ := Option.map_eq_some_iff.1 h
    exact Turn.reads_rule hp.isIn hnext hlast halong
  | frames =>
    obtain ⟨⟨t, d⟩, hnext, rfl⟩ := Option.map_eq_some_iff.1 h
    exact Turn.reads_frame hp.isIn hnext hlast
  | declarations =>
    obtain ⟨⟨t, d⟩, hnext, rfl⟩ := Option.map_eq_some_iff.1 h
    exact Turn.reads_declaration hnext (hp.opened rfl)

/-- At the end of a row nothing is left for the readers of components. -/
theorem readLevel_of_turn?_eq_none (h : p.turn? last = none) : p.readLevel last = pure [] := by
  rw [readLevel, Cursor.level_of_next?_eq_none (turn?_eq_none_iff.1 h)]
  obtain ⟨loop, c⟩ := p
  cases loop with
  | rules => exact readRules.eq_1 _ _
  | frames => exact readFrames.eq_1 _ _
  | declarations => rfl

/-- The reader reads what the readers of components do. -/
theorem Fits.read_eq (hp : p.Fits css) (hlast : last = Location.start.advance css) :
    p.read last = p.readLevel last := by
  -- Along the turns of the reader, which keep to the text.
  fun_induction read last p with
  | case1 p h => exact (readLevel_of_turn?_eq_none h).symm
  | case2 p here behind h ih =>
    rw [ih (hp.behind h)]
    exact (hp.reads hlast h).symm
  | case3 p inside here behind h ihinside ih =>
    rw [ihinside (hp.inside h rfl), ih (hp.behind h)]
    exact (hp.reads hlast h).symm

end Place

end Restyle.Css
