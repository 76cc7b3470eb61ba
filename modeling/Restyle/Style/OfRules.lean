import Restyle.Css.Rule
import Restyle.Options
import Restyle.Style.PropertyName
import Restyle.Style.Unit

/-!
# Style objects of style sheets

Style rules, media groups, font faces and keyframes at the top of a style sheet
become objects under a key of their own.  Rules that share a key share the
object.  Everything else is left out.

A property of a style rule that is declared again keeps its earlier value as a
fallback: the list under `fallbacks` has the latest of them first.
-/

namespace Restyle.Style

open Css (Rule Declaration DeclarationEntry FrameEntry Frame)

def declarationsOf (nodes : List DeclarationEntry) : List Declaration :=
  nodes.filterMap fun
    | .declaration d => some d
    | .comment _ => none

def framesOf (nodes : List FrameEntry) : List Frame :=
  nodes.filterMap fun
    | .frame f => some f
    | .comment _ => none

/-- The object under a key, empty if no object is there. -/
def objectAt (styles : Object) (key : String) : Object :=
  ((styles.get? key).bind Value.nested?).getD []

/-- Changes the object under a key.  What else is under the key gives way to an object. -/
def modifyObject (styles : Object) (key : String) (edit : Object → Object) :
    Object :=
  styles.insert key (.nested (edit (objectAt styles key)))

/-- Puts an object in front of the fallbacks of a style. -/
def addFallback (style fallback : Object) : Object :=
  let earlier := match style.get? Object.fallbackKey with
    | some (.fallbacks objects) => objects
    | _ => []
  style.insert Object.fallbackKey (.fallbacks (fallback :: earlier))

/-- A text with every backslash doubled, as it stands in a string literal. -/
def doubleBackslashes (text : String) : String :=
  String.ofList (text.toList.flatMap fun c => if c == '\\' then ['\\', '\\'] else [c])

/-- The value of a declaration in a style: a number if it is one in the usual unit, else a text with
its backslashes doubled. -/
def declaredValue (o : Options) (d : Declaration) : Value :=
  match withoutUnit d.value o.effectiveUnit with
  | .scalar text => .scalar (doubleBackslashes text)
  | value => value

/-- Adds a declaration to the style of a rule. -/
def addDeclaration (o : Options) (style : Object) (d : Declaration) : Object :=
  let property := propertyKey d.property o.dashes
  let kept := match style.get? property with
    | some previous => addFallback style [(property, previous)]
    | none => style
  kept.insert property (declaredValue o d)

/-- The key of a style rule: its selectors without the mark of the first one. -/
def selectorKey (selectors : List String) : String :=
  let key := ", ".intercalate selectors
  match key.toList with
  | '.' :: rest => String.ofList rest
  | '#' :: rest => String.ofList rest
  | _ => key

def addStyle (o : Options) (styles : Object) (selectors : List String)
    (nodes : List DeclarationEntry) : Object :=
  modifyObject styles (selectorKey selectors) fun style =>
    (declarationsOf nodes).foldl (addDeclaration o) style

/-- Adds a rule inside a media group.  Only style rules count there. -/
def addInMedia (o : Options) (block : Object) : Rule → Object
  | .style selectors nodes => addStyle o block selectors nodes
  | _ => block

/-- Adds a declaration of a font face, its value as it is written. -/
def addFontFace (o : Options) (block : Object) (d : Declaration) : Object :=
  block.insert (propertyKey d.property o.dashes) (.scalar d.value)

def addFrameDeclaration (o : Options) (block : Object) (d : Declaration) : Object :=
  block.insert (propertyKey d.property o.dashes) (withoutUnit d.value o.effectiveUnit)

/-- The key of a keyframe: its moments. -/
def frameKey (frame : Frame) : String :=
  ", ".intercalate frame.moments

def addFrame (o : Options) (block : Object) (frame : Frame) : Object :=
  modifyObject block (frameKey frame) fun object =>
    (declarationsOf frame.declarations).foldl (addFrameDeclaration o) object

/-- Adds a rule at the top of a style sheet. -/
def addTopRule (o : Options) (styles : Object) : Rule → Object
  | .style selectors nodes => addStyle o styles selectors nodes
  | .group (.media query) rules =>
    modifyObject styles ("@media " ++ query) fun block => rules.foldl (addInMedia o) block
  | .fontFace nodes =>
    modifyObject styles "@font-face" fun block => (declarationsOf nodes).foldl (addFontFace o) block
  | .keyframes name _ nodes =>
    modifyObject styles ("@keyframes " ++ name) fun block =>
      (framesOf nodes).foldl (addFrame o) block
  | _ => styles

/-- The style object of the rules of a style sheet. -/
def ofRules (o : Options) (rules : List Rule) : Object :=
  rules.foldl (addTopRule o) []

end Restyle.Style
