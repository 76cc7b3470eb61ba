import Restyle.Css.Statement

/-!
# At-rules with a form of their own

An at-rule has a form if its keyword asks for one and, where that form has no block, what follows has
it.  Any other at-rule is cut off its level like a style rule, so that there is one thing to say of
each form and one of style rules (`Statement.cutAtRule_eq`).
-/

namespace Restyle.Css

open Component

namespace AtRule

/-- What an at-rule is read as if it is not read as a style rule. -/
inductive Form where
  | group (head : String → Group)
  | keyframes (vendor : Option String)
  | page
  | fontFace
  /-- A rule without a block, and what follows its end. -/
  | whole (rule : Rule) (rest : List Component)

/-- The form of an at-rule.  There is none where the keyword asks for none, and none where what
follows does not have the form that it asks for. -/
def form? (keyword : Token) (cs : List Component) : Option Form :=
  match ofKeyword? keyword.keyword with
  | none => none
  | some .media => some (.group .media)
  | some .supports => some (.group .supports)
  | some (.document vendor) => some (.group (.document · vendor))
  | some .host => some (.group fun _ => .host)
  | some (.keyframes vendor) => some (.keyframes vendor)
  | some .page => some .page
  | some .fontFace => some .fontFace
  | some .customMedia => (statement? cs).bind fun p => (customMedia? p.1).map (.whole · p.2)
  | some (.directive d) => (statement? cs).map fun p => .whole (.directive d p.1) p.2

/-- Whether an at-rule is read as a style rule. -/
def isPlain (keyword : Token) (cs : List Component) : Bool := (form? keyword cs).isNone

/-- Whether an at-rule runs to a block and looks for nothing else. -/
def wantsBlock (keyword : Token) (cs : List Component) : Bool :=
  match form? keyword cs with
  | none => true
  | some .page => true
  | some _ => false

/-- The same form, with what follows its end changed. -/
def Form.mapRest (f : List Component → List Component) : Form → Form
  | .whole rule rest => .whole rule (f rest)
  | form => form

/-- Levels whose statements have the same text have the same form. -/
theorem form?_of_statement? {keyword : Token} {cs ds : List Component}
    {f : List Component → List Component}
    (h : statement? ds = (statement? cs).map fun p => (p.1, f p.2)) :
    form? keyword ds = (form? keyword cs).map (Form.mapRest f) := by
  unfold form?
  rw [h]
  cases ofKeyword? keyword.keyword with
  | none => rfl
  | some rule =>
    cases rule with
    | customMedia =>
      cases statement? cs with
      | none => rfl
      | some p => cases hquery : customMedia? p.1 <;> simp [hquery, Form.mapRest]
    | directive d => cases statement? cs <;> rfl
    | _ => rfl

/-- A rule without a block is the one of a statement, which its rest follows. -/
theorem exists_statement?_of_form? {keyword : Token} {cs rest : List Component} {rule : Rule}
    (h : form? keyword cs = some (.whole rule rest)) : ∃ text, statement? cs = some (text, rest) := by
  unfold form? at h
  split at h <;> try cases h
  · obtain ⟨⟨text, rest'⟩, hform, hquery⟩ := Option.bind_eq_some_iff.1 h
    obtain ⟨rule', -, heq⟩ := Option.map_eq_some_iff.1 hquery
    cases heq
    exact ⟨text, hform⟩
  · obtain ⟨⟨text, rest'⟩, hform, heq⟩ := Option.map_eq_some_iff.1 h
    cases heq
    exact ⟨text, hform⟩

end AtRule

namespace Statement

/-- Takes an at-rule of a given form off a level that ends at `stop`.  `place` is where the keyword
ends. -/
def cutForm (stop place : Location) (cs : List Component) : AtRule.Form → Cut
  | .group head => cutGroup stop head cs
  | .keyframes vendor => cutKeyframes stop vendor place cs
  | .page =>
    let selectors := (selectorsOf none (untilCurly cs)).filter (· != "")
    let next := Body.ofLevel stop (fromCurly cs)
    ⟨.flat (.page selectors next.1), none, next.2⟩
  | .fontFace =>
    let next := Body.ofLevel stop (fromEnd cs)
    ⟨.flat (.fontFace next.1), none, next.2⟩
  | .whole rule rest => ⟨.flat (.whole rule), none, rest⟩

/-- An at-rule is cut off in its form, and like a style rule if it has none. -/
theorem cutAtRule_eq (stop : Location) (skipped : Option Skipped) (keyword : Token) (c : Component)
    (cs : List Component) : cutAtRule stop skipped keyword c cs =
      match AtRule.form? keyword cs with
      | none => cutStyle stop skipped c cs
      | some form => cutForm stop keyword.stop cs form := by
  unfold cutAtRule AtRule.form?
  cases AtRule.ofKeyword? keyword.keyword with
  | none => rfl
  | some rule =>
    cases rule with
    | customMedia =>
      cases AtRule.statement? cs with
      | none => rfl
      | some p => cases hquery : AtRule.customMedia? p.1 <;> simp [hquery, cutForm]
    | directive d => cases AtRule.statement? cs <;> rfl
    | _ => rfl

end Statement

end Restyle.Css
