import Restyle.Proofs.Boundaries
import Restyle.Proofs.SourcePlaces

/-!
# How far components extend

The components of a text stand side by side like its tokens, and what a block holds lies between its
brackets (`Component.Spans`).  A block that is never closed runs to the end of the text, so nothing stands
behind it.

Nesting keeps this up: with each token the level inside the innermost open block grows up to the end of
the token, and every block outside it waits at its opening bracket (`Nesting.Frames`).  When the text ends,
the open blocks are cut off there (`Component.spans_ofTokens`).
-/

namespace Restyle.Css

namespace Component

variable {P : Location → Prop}

/-- Components side by side from one place to another.  `P` holds of the places where their tokens start
and end. -/
inductive Spans (P : Location → Prop) : Location → List Component → Location → Prop
  | nil {loc : Location} (h : P loc) : Spans P loc [] loc
  | leaf {t : Token} {cs : List Component} {hi : Location} (h : P t.start)
    (rest : Spans P t.stop cs hi) : Spans P t.start (.leaf t :: cs) hi
  | closed {opener closer : Token} {contents cs : List Component} {hi : Location} (h : P opener.start)
    (inside : Spans P opener.stop contents closer.start) (rest : Spans P closer.stop cs hi) :
    Spans P opener.start (.block opener contents (some closer) :: cs) hi
  | cut {opener : Token} {contents : List Component} {hi : Location} (h : P opener.start)
    (inside : Spans P opener.stop contents hi) : Spans P opener.start [.block opener contents none] hi

end Component

theorem Token.start_le_stop (t : Token) : t.start ≤ t.stop :=
  Location.le_advance _ _

namespace Component

variable {P : Location → Prop} {lo mid hi : Location} {cs ds : List Component}

namespace Spans

theorem le (h : Spans P lo cs hi) : lo ≤ hi := by
  induction h with
  | nil => exact Location.le_refl _
  | leaf _ _ ih => exact Location.le_trans (Token.start_le_stop _) ih
  | closed _ _ _ inside rest =>
    exact Location.le_trans (Token.start_le_stop _) (Location.le_trans inside
      (Location.le_trans (Token.start_le_stop _) rest))
  | cut _ _ inside => exact Location.le_trans (Token.start_le_stop _) inside

theorem of_start (h : Spans P lo cs hi) : P lo := by
  cases h <;> assumption

theorem of_stop (h : Spans P lo cs hi) : P hi := by
  induction h with
  | nil h => exact h
  | leaf _ _ ih => exact ih
  | closed _ _ _ _ rest => exact rest
  | cut _ _ inside => exact inside

theorem start_eq {c : Component} (h : Spans P lo (c :: cs) hi) : c.start = lo := by
  cases h <;> rfl

theorem append (h : Spans P lo cs mid) (hclosed : ∀ c ∈ cs, c.isClosed = true)
    (h' : Spans P mid ds hi) : Spans P lo (cs ++ ds) hi := by
  induction h with
  | nil => exact h'
  | leaf h _ ih => exact .leaf h (ih (List.forall_mem_cons.1 hclosed).2 h')
  | closed h inside _ _ ih => exact .closed h inside (ih (List.forall_mem_cons.1 hclosed).2 h')
  | cut => exact absurd (hclosed _ List.mem_cons_self) (by exact nofun)

/-- What follows the first components of a level. -/
theorem of_suffix (h : Spans P lo cs hi) (hsuffix : ds <:+ cs) :
    ∃ mid, lo ≤ mid ∧ Spans P mid ds hi := by
  induction h with
  | nil h =>
    obtain rfl := List.suffix_nil.1 hsuffix
    exact ⟨_, Location.le_refl _, .nil h⟩
  | leaf h rest ih =>
    rcases List.suffix_cons_iff.1 hsuffix with rfl | hsuffix
    · exact ⟨_, Location.le_refl _, .leaf h rest⟩
    · obtain ⟨mid, hle, hspans⟩ := ih hsuffix
      exact ⟨mid, Location.le_trans (Token.start_le_stop _) hle, hspans⟩
  | closed h inside rest _ ih =>
    rcases List.suffix_cons_iff.1 hsuffix with rfl | hsuffix
    · exact ⟨_, Location.le_refl _, .closed h inside rest⟩
    · obtain ⟨mid, hle, hspans⟩ := ih hsuffix
      have hbefore := Location.le_trans (Token.start_le_stop _)
        (Location.le_trans inside.le (Token.start_le_stop _))
      exact ⟨mid, Location.le_trans hbefore hle, hspans⟩
  | cut h inside =>
    rcases List.suffix_cons_iff.1 hsuffix with rfl | hsuffix
    · exact ⟨_, Location.le_refl _, .cut h inside⟩
    · obtain rfl := List.suffix_nil.1 hsuffix
      exact ⟨_, Location.le_trans (Token.start_le_stop _) inside.le, .nil inside.of_stop⟩

end Spans

/-! ## Nesting -/

namespace Nesting

/-- Open blocks, the outermost of them on a level that starts at `lo`.  They wait behind the opening
bracket of the innermost. -/
inductive Frames (P : Location → Prop) (lo : Location) : List Pending → Location → Prop
  | nil : Frames P lo [] lo
  | cons {p : Pending} {ps : List Pending} {mid : Location} (outer : Frames P lo ps mid)
    (before : Spans P mid p.before.reverse p.opener.start)
    (hclosed : ∀ c ∈ p.before.reverse, c.isClosed = true) : Frames P lo (p :: ps) p.opener.stop

/-- Nesting that has come from one place to another. -/
structure Spans (P : Location → Prop) (lo : Location) (n : Nesting) (hi : Location) : Prop where
  exists_level : ∃ mid, Frames P lo n.pending mid ∧ Component.Spans P mid n.level.reverse hi
  closed : ∀ c ∈ n.level.reverse, c.isClosed = true

/-- One more component on the level inside. -/
theorem spans_cons {level : List Component} {c : Component}
    (h : Component.Spans P lo level.reverse mid) (hclosed : ∀ c ∈ level.reverse, c.isClosed = true)
    (hc : Component.Spans P mid [c] hi) : Component.Spans P lo (c :: level).reverse hi := by
  rw [List.reverse_cons]
  exact h.append hclosed hc

theorem forall_isClosed_cons {level : List Component} {c : Component}
    (hclosed : ∀ c ∈ level.reverse, c.isClosed = true) (hc : c.isClosed = true) :
    ∀ d ∈ (c :: level).reverse, d.isClosed = true := by
  rw [List.reverse_cons]
  exact List.forall_mem_append.2 ⟨hclosed, List.forall_mem_singleton.2 hc⟩

/-- A token takes nesting to its end. -/
theorem Spans.push {n : Nesting} {t : Token} (h : Spans P lo n t.start) (ht : P t.start)
    (hstop : P t.stop) : Spans P lo (n.push t) t.stop := by
  obtain ⟨⟨mid, hframes, hlevel⟩, hclosed⟩ := h
  have hleaf : Component.Spans P mid (.leaf t :: n.level).reverse t.stop :=
    spans_cons hlevel hclosed (.leaf ht (.nil hstop))
  unfold Nesting.push
  split
  · exact ⟨⟨t.stop, .cons (p := ⟨t, n.level⟩) hframes hlevel hclosed, .nil hstop⟩, nofun⟩
  · rcases n with ⟨level, _ | ⟨p, ps⟩⟩
    · exact ⟨⟨mid, hframes, hleaf⟩, forall_isClosed_cons hclosed rfl⟩
    · dsimp only
      split
      · cases hframes with
        | cons outer before hbefore =>
          exact ⟨⟨_, outer, spans_cons before hbefore (.closed before.of_stop hlevel (.nil hstop))⟩,
            forall_isClosed_cons hbefore rfl⟩
      · exact ⟨⟨mid, hframes, hleaf⟩, forall_isClosed_cons hclosed rfl⟩

theorem Spans.foldl_push {n : Nesting} {ts : List Token} (h : Spans P lo n mid)
    (hts : Token.Runs P mid ts hi) : Spans P lo (ts.foldl Nesting.push n) hi := by
  induction hts generalizing n with
  | nil => exact h
  | cons ht rest ih => exact ih (h.push ht rest.of_start)

/-- The blocks that are still open are cut off at the end. -/
theorem Frames.spans_finish {ps : List Pending} (h : Frames P lo ps mid) {level : List Component}
    (hlevel : Component.Spans P mid level.reverse hi) :
    Component.Spans P lo (finish level ps) hi := by
  induction h generalizing level with
  | nil => exact hlevel
  | cons outer before hclosed ih =>
    exact ih (spans_cons before hclosed (.cut before.of_stop hlevel))

end Nesting

/-- The components of a row of tokens extend from its start to its end. -/
theorem spans_ofTokens {ts : List Token} (hlo : P lo) (h : Token.Runs P lo ts hi) :
    Spans P lo (ofTokens ts) hi := by
  have hstart : Nesting.Spans P lo {} lo := ⟨⟨lo, .nil, .nil hlo⟩, nofun⟩
  obtain ⟨⟨mid, hframes, hlevel⟩, -⟩ := hstart.foldl_push h
  exact hframes.spans_finish hlevel

/-- The components of a text extend from its start to its end. -/
theorem spans_ofText (text : List Char) :
    Spans (·.IsIn text) Location.start (ofText Location.start text) (Location.start.advance text) :=
  spans_ofTokens (Location.isIn_advance (keepsLineEnd_nil text))
    (Token.runs_lex rfl (keepsLineEnd_nil text))

end Component

end Restyle.Css
