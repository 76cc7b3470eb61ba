import Restyle.Css.Rule
import Restyle.Css.Prelude

/-!
# At-keywords

The at-rules that are told apart by their keyword, and those of them that have
no block.  Any other at-keyword starts a style rule.
-/

namespace Restyle.Css

/-- The at-rules with a form of their own. -/
inductive AtRule where
  | media
  | supports
  | document (vendor : Option String)
  | host
  | page
  | fontFace
  | keyframes (vendor : Option String)
  | customMedia
  | directive (directive : Directive)
  deriving Repr, DecidableEq

namespace AtRule

/-- The vendor in front of a keyword that ends in `name`: none, or a text between two hyphens, which
belong to it. -/
def vendor? (name keyword : List Char) : Option (Option String) :=
  if name.isSuffixOf keyword then
    let vendor := keyword.take (keyword.length - name.length)
    if vendor.isEmpty then some none
    else if 2 < vendor.length && vendor.head? == some '-' && vendor.getLast? == some '-' then
      some (some (String.ofList vendor))
    else none
  else none

def ofKeyword? (keyword : List Char) : Option AtRule :=
  match vendor? "keyframes".toList keyword, vendor? "document".toList keyword with
  | some vendor, _ => some (.keyframes vendor)
  | none, some vendor => some (.document vendor)
  | none, none =>
    match String.ofList keyword with
    | "media" => some .media
    | "supports" => some .supports
    | "host" => some .host
    | "page" => some .page
    | "font-face" => some .fontFace
    | "custom-media" => some .customMedia
    | "import" => some (.directive .inclusion)
    | "charset" => some (.directive .charset)
    | "namespace" => some (.directive .vocabulary)
    | _ => none

/-- What follows the end of a statement: a semicolon ends it, and so does the end of its level. -/
def afterEnd? : List Component → Option (List Component)
  | [] => some []
  | c :: cs => if c.isSemicolon then some cs else none

/-- The text of a statement without a block, and what follows it.  There is none where a block
follows or where the text is empty. -/
def statement? (cs : List Component) : Option (String × List Component) :=
  let text := Component.trimmedText (Component.untilEnd cs)
  if text == "" then none
  else (afterEnd? (Component.fromEnd cs)).map fun rest => (text, rest)

/-- The custom media rule of a text: a name that starts with two hyphens, white space and a
query. -/
def customMedia? (text : String) : Option Rule :=
  let name := text.toList.takeWhile (!Text.isBlank ·)
  let query := Text.trim (text.toList.dropWhile (!Text.isBlank ·))
  if ['-', '-'].isPrefixOf name && 3 ≤ name.length && !query.isEmpty then
    some (.customMedia (String.ofList name) (String.ofList query))
  else none

theorem tokenCount_of_afterEnd? {cs rest : List Component} (h : afterEnd? cs = some rest) :
    Component.tokenCount rest ≤ Component.tokenCount cs := by
  cases cs with
  | nil => simp only [afterEnd?, Option.some.injEq] at h; simp [← h]
  | cons c cs =>
    simp only [afterEnd?, Option.ite_none_right_eq_some, Option.some.injEq] at h
    exact Nat.le_of_lt (h.2 ▸ Component.tokenCount_lt_cons c cs)

theorem tokenCount_of_statement? {cs rest : List Component} {text : String}
    (h : statement? cs = some (text, rest)) :
    Component.tokenCount rest ≤ Component.tokenCount cs := by
  unfold statement? at h
  dsimp only at h
  split at h
  · simp at h
  · obtain ⟨rest', h', heq⟩ := Option.map_eq_some_iff.1 h
    simp only [Prod.mk.injEq] at heq
    exact Nat.le_trans (tokenCount_of_afterEnd? (heq.2 ▸ h')) (Component.tokenCount_fromEnd_le cs)

end AtRule

end Restyle.Css
