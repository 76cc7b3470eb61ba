import Restyle.Css.AtRule
import Restyle.Css.Body

/-!
# Statements

A level of a style sheet is cut into statements before any of them is read.
Where a statement ends depends on how it starts: a style rule runs to the next
block in curly brackets, an at-rule to its block or semicolon, and an at-rule
that does not have the form its keyword asks for is a style rule.

`Statement.cut` takes the first statement off a level.  What is left is smaller,
and so is what stands inside the statement (`tokenCount_cut`).
-/

namespace Restyle.Css

namespace Statement

/-- A statement that holds no other statements. -/
inductive Flat where
  /-- White space, a semicolon or a mark, which say nothing. -/
  | gap
  /-- A comment: what it says, the text that shows whether it is closed, and its place. -/
  | comment (body text : List Char) (place : Location)
  /-- A closing curly bracket without a block. -/
  | strayBracket (place : Location)
  /-- A block, or the end of a level, where something should stand in front. -/
  | refused (cause : Problem.Cause) (place : Location)
  | style (selectors : List String) (body : Body)
  | keyframes (name : String) (vendor : Option String) (body : Body)
  | fontFace (body : Body)
  | page (selectors : List String) (body : Body)
  | whole (rule : Rule)
  deriving Repr, DecidableEq

end Statement

inductive Statement where
  /-- A rule that groups the rules in its body. -/
  | group (head : Group) (body : Body)
  | flat (statement : Statement.Flat)
  deriving Repr, DecidableEq

namespace Statement

/-- What a group has in its body. -/
def contents : Statement → List Component
  | .group _ body => body.contents
  | .flat _ => []

/-- A statement with the level behind it and, if it was refused, the block to pass over there. -/
structure Cut where
  statement : Statement
  skipped : Option Skipped
  rest : List Component

/-- Takes a style rule off a level that ends at `stop`. -/
def cutStyle (stop : Location) (skipped : Option Skipped) (c : Component) (cs : List Component) :
    Cut :=
  let selectors := selectorsOf skipped (Component.untilCurly (c :: cs))
  if c.isCurly || selectors.all (· == "") then
    let next := Skipped.ofLevel (Component.fromCurly (c :: cs))
    ⟨.flat (.refused .noSelector (Skipped.startOf skipped c)), next.1, next.2⟩
  else
    let next := Body.ofLevel stop (Component.fromCurly (c :: cs))
    ⟨.flat (.style selectors next.1), none, next.2⟩

/-- Takes a group off a level from the prelude on. -/
def cutGroup (stop : Location) (head : String → Group) (cs : List Component) : Cut :=
  let next := Body.ofLevel stop (Component.fromEnd cs)
  ⟨.group (head (Component.trimmedText (Component.untilEnd cs))) next.1, none, next.2⟩

/-- Takes keyframes off a level from the name on.  The name should start at `place`. -/
def cutKeyframes (stop : Location) (vendor : Option String) (place : Location)
    (cs : List Component) : Cut :=
  let name := Component.trimmedText (Component.untilEnd cs)
  if name == "" then
    let next := Skipped.ofLevel (Component.fromEnd cs)
    ⟨.flat (.refused .namelessKeyframes place), next.1, next.2⟩
  else
    let next := Body.ofLevel stop (Component.fromEnd cs)
    ⟨.flat (.keyframes name vendor next.1), none, next.2⟩

/-- Takes an at-rule off a level.  `c` is its keyword. -/
def cutAtRule (stop : Location) (skipped : Option Skipped) (keyword : Token) (c : Component)
    (cs : List Component) : Cut :=
  match AtRule.ofKeyword? keyword.keyword with
  | none => cutStyle stop skipped c cs
  | some .media => cutGroup stop .media cs
  | some .supports => cutGroup stop .supports cs
  | some (.document vendor) => cutGroup stop (.document · vendor) cs
  | some .host => cutGroup stop (fun _ => .host) cs
  | some (.keyframes vendor) => cutKeyframes stop vendor keyword.stop cs
  | some .page =>
    let selectors := (selectorsOf none (Component.untilCurly cs)).filter (· != "")
    let next := Body.ofLevel stop (Component.fromCurly cs)
    ⟨.flat (.page selectors next.1), none, next.2⟩
  | some .fontFace =>
    let next := Body.ofLevel stop (Component.fromEnd cs)
    ⟨.flat (.fontFace next.1), none, next.2⟩
  | some .customMedia =>
    match AtRule.statement? cs with
    | some (text, rest) =>
      match AtRule.customMedia? text with
      | some rule => ⟨.flat (.whole rule), none, rest⟩
      | none => cutStyle stop skipped c cs
    | none => cutStyle stop skipped c cs
  | some (.directive directive) =>
    match AtRule.statement? cs with
    | some (text, rest) => ⟨.flat (.whole (.directive directive text)), none, rest⟩
    | none => cutStyle stop skipped c cs

/-- Takes the first statement off a level that ends at `stop`. -/
def cut (stop : Location) (skipped : Option Skipped) (c : Component) (cs : List Component) : Cut :=
  match c with
  | .block _ _ _ => cutStyle stop skipped c cs
  | .leaf t =>
    match t.kind with
    | .whiteSpace | .semicolon | .openMark | .closeMark => ⟨.flat .gap, none, cs⟩
    | .comment =>
      ⟨.flat (.comment (Token.commentBody t.text) (Skipped.textOf skipped c)
        (Skipped.startOf skipped c)), none, cs⟩
    | .closing .curly => ⟨.flat (.strayBracket (Skipped.startOf skipped c)), none, cs⟩
    | .atKeyword => cutAtRule stop skipped t c cs
    | _ => cutStyle stop skipped c cs

/-! ## What is cut off is smaller -/

private theorem lt_cons_of_le {n : Nat} (c : Component) {cs : List Component}
    (h : n ≤ Component.tokenCount cs) : n < Component.tokenCount (c :: cs) :=
  Nat.lt_of_le_of_lt h (Component.tokenCount_lt_cons c cs)

theorem tokenCount_cutStyle (stop : Location) (skipped : Option Skipped) (c : Component)
    (cs : List Component) :
    Component.tokenCount (cutStyle stop skipped c cs).statement.contents +
        Component.tokenCount (cutStyle stop skipped c cs).rest
      < Component.tokenCount (c :: cs) := by
  unfold cutStyle
  dsimp only
  split
  · simpa [contents, Component.tokenCount] using Skipped.tokenCount_ofLevel_fromCurly_lt c cs
  · rename_i h
    simp only [Bool.or_eq_true, not_or, Bool.not_eq_true] at h
    have := Component.tokenCount_fromCurly_lt h.1 cs
    have := Body.tokenCount_ofLevel stop (Component.fromCurly (c :: cs))
    simp only [contents, Component.tokenCount, Component.tokensOf_nil, List.length_nil] at *
    omega

theorem tokenCount_cutGroup (stop : Location) (head : String → Group) (cs : List Component) :
    Component.tokenCount (cutGroup stop head cs).statement.contents +
        Component.tokenCount (cutGroup stop head cs).rest
      ≤ Component.tokenCount cs := by
  have := Component.tokenCount_fromEnd_le cs
  have := Body.tokenCount_ofLevel stop (Component.fromEnd cs)
  simp only [cutGroup, contents]
  omega

theorem tokenCount_cutKeyframes (stop : Location) (vendor : Option String) (place : Location)
    (cs : List Component) :
    Component.tokenCount (cutKeyframes stop vendor place cs).statement.contents +
        Component.tokenCount (cutKeyframes stop vendor place cs).rest
      ≤ Component.tokenCount cs := by
  have := Component.tokenCount_fromEnd_le cs
  have := Body.tokenCount_ofLevel stop (Component.fromEnd cs)
  have := Skipped.tokenCount_ofLevel_le (Component.fromEnd cs)
  unfold cutKeyframes
  dsimp only
  split <;> simp only [contents, Component.tokenCount, Component.tokensOf_nil, List.length_nil] at *
    <;> omega

theorem tokenCount_cutAtRule (stop : Location) (skipped : Option Skipped) (keyword : Token)
    (c : Component) (cs : List Component) :
    Component.tokenCount (cutAtRule stop skipped keyword c cs).statement.contents +
        Component.tokenCount (cutAtRule stop skipped keyword c cs).rest
      < Component.tokenCount (c :: cs) := by
  have style := tokenCount_cutStyle stop skipped c cs
  unfold cutAtRule
  split
  · exact style
  · exact lt_cons_of_le c (tokenCount_cutGroup _ _ _)
  · exact lt_cons_of_le c (tokenCount_cutGroup _ _ _)
  · exact lt_cons_of_le c (tokenCount_cutGroup _ _ _)
  · exact lt_cons_of_le c (tokenCount_cutGroup _ _ _)
  · exact lt_cons_of_le c (tokenCount_cutKeyframes _ _ _ _)
  · have := Component.tokenCount_dropWhile_le (!·.isCurly) cs
    have := Body.tokenCount_ofLevel stop (Component.fromCurly cs)
    refine lt_cons_of_le c ?_
    simp only [contents, Component.tokenCount, Component.tokensOf_nil, List.length_nil,
      Component.fromCurly] at *
    omega
  · have := Component.tokenCount_fromEnd_le cs
    have := Body.tokenCount_ofLevel stop (Component.fromEnd cs)
    refine lt_cons_of_le c ?_
    simp only [contents, Component.tokenCount, Component.tokensOf_nil, List.length_nil] at *
    omega
  · split
    · rename_i text rest h
      split
      · refine lt_cons_of_le c ?_
        simpa [contents, Component.tokenCount] using AtRule.tokenCount_of_statement? h
      · exact style
    · exact style
  · split
    · rename_i text rest h
      refine lt_cons_of_le c ?_
      simpa [contents, Component.tokenCount] using AtRule.tokenCount_of_statement? h
    · exact style

/-- The inside of a statement and the level behind it are together smaller than the level. -/
theorem tokenCount_cut (stop : Location) (skipped : Option Skipped) (c : Component)
    (cs : List Component) :
    Component.tokenCount (cut stop skipped c cs).statement.contents +
        Component.tokenCount (cut stop skipped c cs).rest
      < Component.tokenCount (c :: cs) := by
  have style := tokenCount_cutStyle stop skipped c cs
  unfold cut
  split
  · exact style
  · split
    case h_7 => exact tokenCount_cutAtRule stop skipped _ _ cs
    case h_8 => exact style
    all_goals exact lt_cons_of_le _ (by simp [contents, Component.tokenCount])

end Statement

end Restyle.Css
