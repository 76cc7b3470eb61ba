import Restyle.Css.Statement
import Restyle.Css.Keyframes

/-!
# Style sheets

Reading a style sheet: the text is cut into tokens, the tokens nest into
components, and each level of components is read statement by statement.  A
silent reader always gets to the end.
-/

namespace Restyle.Css

/-- The construct that a group is. -/
def Group.construct : Group → Construct
  | .media _ => .media
  | .supports _ => .supports
  | .document _ _ => .document
  | .host => .host

/-- Reads a statement that holds no other statements.  A style rule without a block has no
declarations; other rules are left out when their block is missing. -/
def Statement.Flat.read : Statement.Flat → Reading (List Rule)
  | .gap => return []
  | .comment body text place => do
    let comment ← readComment body text place
    return (comment.map Rule.comment).toList
  | .strayBracket place => do
    Reading.note (.strayBracket place.line)
    return []
  | .refused cause place => do
    Reading.report cause place
    return []
  | .style selectors body => do
    let declarations ← body.read .plain (readDeclarations body.contents)
    return [.style selectors (declarations.getD [])]
  | .keyframes name vendor body => do
    let frames ← body.read .keyframes (readFrames body.stop none body.contents)
    return (frames.map (Rule.keyframes name vendor)).toList
  | .fontFace body => do
    let declarations ← body.read .fontFace (readDeclarations body.contents)
    return (declarations.map Rule.fontFace).toList
  | .page selectors body => do
    let declarations ← body.read .page (readDeclarations body.contents)
    return (declarations.map (Rule.page selectors)).toList
  | .whole rule => return [rule]

/-- Reads the rules of a level that ends at `stop`. -/
def readRules (stop : Location) (skipped : Option Skipped) :
    List Component → Reading (List Rule)
  | [] => return []
  | c :: cs =>
    match _h : Statement.cut stop skipped c cs with
    | ⟨.flat statement, next, rest⟩ => do
      let here ← statement.read
      (here ++ ·) <$> readRules stop next rest
    | ⟨.group head body, next, rest⟩ => do
      let inner ← body.read head.construct (readRules body.stop none body.contents)
      ((inner.map (Rule.group head)).toList ++ ·) <$> readRules stop next rest
termination_by cs => Component.tokenCount cs
decreasing_by
  all_goals
    have := Statement.tokenCount_cut stop skipped c cs
    rw [_h] at this
    simp only [Statement.contents] at this
    omega

/-- A style sheet as it was read, with the problems that were noted. -/
structure Stylesheet where
  rules : List Rule
  problems : List Problem
  deriving Repr, DecidableEq

namespace Stylesheet

/-- Reads the rules of a text, with the notes kept on the way. -/
def read (css : String) : Reading (List Rule) :=
  let text := css.toList
  readRules (Location.start.advance text) none (Component.ofText Location.start text)

deriving instance DecidableEq for Except

/-- The style sheet of a text, or the problem at which a strict reader stops. -/
def parse (css : String) (options : ReadOptions) : Except Problem Stylesheet :=
  match read css options with
  | (_, .error problem) => .error problem
  | (notes, .ok rules) => .ok ⟨rules, notes.filterMap Notice.problem?⟩

end Stylesheet

end Restyle.Css
