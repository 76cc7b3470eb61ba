import Restyle.Css.Location

/-!
# Problems of a style sheet

A problem is a cause at a place.  The wording of each cause is in
`Problem.Cause.message`.
-/

namespace Restyle.Css

/-- The constructs whose body is a block in curly brackets. -/
inductive Construct where
  /-- A style rule or a keyframe. -/
  | plain
  | media
  | supports
  | document
  | host
  | page
  | fontFace
  | keyframes
  deriving Repr, DecidableEq

/-- The words that name a construct in front of a complaint. -/
def Construct.label : Construct → String
  | .plain => ""
  | .media => "@media "
  | .supports => "@supports "
  | .document => "@document "
  | .host => "@host "
  | .page => "@page "
  | .fontFace => "@font-face "
  | .keyframes => "@keyframes "

namespace Problem

inductive Cause where
  /-- A comment runs to the end of the text. -/
  | unclosedComment
  /-- A style rule or a keyframe has nothing in front of its block. -/
  | noSelector
  | namelessKeyframes
  | noBlock (construct : Construct)
  | openBlock (construct : Construct)
  /-- What stands where a declaration should has no property in front of a colon. -/
  | noProperty
  /-- A block goes on when its inside has been read to the end. -/
  | unbalanced
  deriving Repr, DecidableEq

def Cause.message : Cause → String
  | .unclosedComment => "End of comment missing"
  | .noSelector => "selector missing"
  | .namelessKeyframes => "@keyframes missing name"
  | .noBlock construct => construct.label ++ "missing '\x7b'"
  | .openBlock construct => construct.label ++ "missing '\x7d'"
  | .noProperty => "property missing ':'"
  | .unbalanced => "unbalanced block"

end Problem

/-- Something wrong in a style sheet. -/
structure Problem where
  cause : Problem.Cause
  location : Location
  /-- The name of the text, if it has one. -/
  source : Option String
  deriving Repr, DecidableEq

namespace Problem

def message (p : Problem) : String :=
  p.cause.message

/-- A problem with its place in a sentence. -/
def describe (p : Problem) : String :=
  "Parse error at line " ++ toString p.location.line ++ ", column " ++
    toString p.location.column ++ ": " ++ p.message

end Problem

end Restyle.Css
