import Restyle.Css.Stylesheet
import Restyle.Style.OfRules

/-!
# The journal of a conversion

What a conversion tells about its course: what the reader passed over, what it
recovered from, which values lost their unit or became fallbacks, and which
rules were left out.  The journal follows the conversion step by step: an event
may depend on the style object as it is before the step.
-/

namespace Restyle

open Css (Rule Declaration DeclarationEntry Frame)

inductive Event where
  /-- A closing curly bracket without a block was passed over. -/
  | strayBracket (line : Nat)
  | parsed (rules problems : Nat)
  | recovered (problem : Css.Problem)
  | strippedUnit (value unit : String)
  | keptFallback (property : String)
  | skippedInMedia (kind : String)
  | skipped (kind : String)
  | converted (keys : Nat)
  deriving Repr, DecidableEq

inductive Level where
  | trace
  | debug
  | warn
  deriving Repr, DecidableEq

namespace Event

def level : Event → Level
  | .recovered _ => .warn
  | .strippedUnit _ _ | .keptFallback _ => .trace
  | _ => .debug

def message : Event → String
  | .strayBracket _ => "skipping unmatched '\x7d'"
  | .parsed _ _ => "parsed stylesheet"
  | .recovered _ => "recovered from CSS syntax error"
  | .strippedUnit _ _ => "stripped unit"
  | .keptFallback _ => "keeping earlier value as fallback"
  | .skippedInMedia _ => "skipping rule nested in @media"
  | .skipped _ => "skipping unsupported rule"
  | .converted _ => "converted stylesheet to JSS"

/-- What an event tells beside its wording. -/
def fields : Event → List (String × String)
  | .strayBracket line => [("line", toString line)]
  | .parsed rules problems => [("rules", toString rules), ("errors", toString problems)]
  | .recovered problem => [("error", problem.describe)]
  | .strippedUnit value unit => [("value", value), ("unit", unit)]
  | .keptFallback property => [("property", property)]
  | .skippedInMedia kind => [("kind", kind)]
  | .skipped kind => [("kind", kind)]
  | .converted keys => [("keys", toString keys)]

end Event

namespace Journal

open Style

/-- The events of steps taken one after the other from a state on. -/
def along {σ α : Type} (step : σ → α → σ) (events : σ → α → List Event) (s : σ) :
    List α → List Event
  | [] => []
  | a :: as => events s a ++ along step events (step s a) as

/-- The event of a value that loses its unit. -/
def ofValue (o : Options) (d : Declaration) : List Event :=
  match withoutUnit d.value o.effectiveUnit, o.effectiveUnit with
  | .number _, some unit => [.strippedUnit d.value unit]
  | _, _ => []

/-- The events of a declaration in a style rule. -/
def ofDeclaration (o : Options) (style : Style.Object) (d : Declaration) : List Event :=
  let property := propertyKey d.property o.dashes
  (if (style.get? property).isSome then [.keptFallback property] else []) ++ ofValue o d

def ofStyle (o : Options) (styles : Style.Object) (selectors : List String)
    (nodes : List DeclarationEntry) : List Event :=
  along (addDeclaration o) (ofDeclaration o) (objectAt styles (selectorKey selectors))
    (declarationsOf nodes)

/-- The events of a rule inside a media group. -/
def ofNested (o : Options) (block : Style.Object) : Rule → List Event
  | .style selectors nodes => ofStyle o block selectors nodes
  | .comment _ => []
  | other => [.skippedInMedia other.kind]

def ofFrame (o : Options) (frame : Frame) : List Event :=
  (declarationsOf frame.declarations).flatMap (ofValue o)

/-- The events of a rule at the top of a style sheet. -/
def ofRule (o : Options) (styles : Style.Object) : Rule → List Event
  | .style selectors nodes => ofStyle o styles selectors nodes
  | .group (.media query) rules =>
    along (addInMedia o) (ofNested o) (objectAt styles ("@media " ++ query)) rules
  | .keyframes _ _ nodes => (framesOf nodes).flatMap (ofFrame o)
  | .fontFace _ | .comment _ => []
  | other => [.skipped other.kind]

/-- The events of making a style object of rules. -/
def ofRules (o : Options) (rules : List Rule) : List Event :=
  along (addTopRule o) (ofRule o) [] rules

/-- The event of a note that is no problem. -/
def ofNotice : Css.Notice → Option Event
  | .problem _ => none
  | .strayBracket line => some (.strayBracket line)

/-- The events of reading a style sheet and of making a style object of it.  A strict reader that
stops has told nothing but what it passed over. -/
def ofConversion (o : Options) (css : String) : List Event :=
  match Css.Stylesheet.read css o.read with
  | (notes, .error _) => notes.filterMap ofNotice
  | (notes, .ok rules) =>
    let problems := notes.filterMap Css.Notice.problem?
    notes.filterMap ofNotice ++ [.parsed rules.length problems.length] ++
      problems.map .recovered ++
      (if rules.isEmpty then []
        else ofRules o rules ++ [.converted (Style.ofRules o rules).length])

end Journal

end Restyle
