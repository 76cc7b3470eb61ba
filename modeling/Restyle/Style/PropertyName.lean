import Restyle.Text.Word

/-!
# Property names

Style sheets write property names with hyphens (`border-top-color`), style
objects in camel case (`borderTopColor`).  A vendor's property starts with a
hyphen in a style sheet and with a capital in a style object
(`-webkit-transform`, `WebkitTransform`).
-/

namespace Restyle.Style

/-- A name in camel case: the first word in lower case, the others capitalised. -/
def camelCase (name : String) : String :=
  match Text.words name.toList with
  | [] => ""
  | w :: ws => String.ofList (Text.lowerWord w ++ ws.flatMap Text.capitalWord)

/-- A text with a hyphen in front of every ASCII capital but its first character. -/
def hyphenate : List Char → List Char
  | [] => []
  | c :: cs => c :: cs.flatMap fun d => if d.isUpper then ['-', d] else [d]

/-- A name in lower case with hyphens in front of its capitals. -/
def kebabCase (name : String) : String :=
  String.ofList (Text.lowercase (hyphenate name.toList))

/-- A name with a capital first letter. -/
def capitalized (name : String) : String :=
  match name.toList with
  | [] => ""
  | c :: cs => String.ofList (Text.toUpper c ++ cs)

/-- The name of a property in a style object.  With `dashes` it is kept as it is written. -/
def propertyKey (property : String) (dashes : Bool) : String :=
  if dashes then property
  else if property.toList.head? == some '-' then capitalized (camelCase property)
  else camelCase property

end Restyle.Style
