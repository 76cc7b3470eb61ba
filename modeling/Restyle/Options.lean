import Restyle.Css.Reading

/-!
# Options

What a conversion from style sheets to style objects can be told.
-/

namespace Restyle

/-- How a style sheet becomes a style object. -/
structure Options where
  /-- The unit that single numbers lose. -/
  unit : Option String := none
  /-- Whether property names are kept as they are written. -/
  dashes : Bool := false
  read : Css.ReadOptions := {}
  deriving Repr, DecidableEq

/-- The unit to strip, if any.  An empty unit counts as none. -/
def Options.effectiveUnit (o : Options) : Option String :=
  o.unit.filter (· != "")

end Restyle
