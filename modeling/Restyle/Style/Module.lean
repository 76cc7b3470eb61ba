import Restyle.Style.Json

/-!
# Style modules

A style object is delivered as a module that exports a hook made by
`makeStyles`.  The object stands in it as a JSON literal.
-/

namespace Restyle.Style

def moduleOpening : String :=
  "\nimport \x7b makeStyles \x7d from \"@material-ui/core/styles\";\n\n" ++
    "export const useStyles = makeStyles((theme) => \n("

def moduleEnding : String := "));\n"

def moduleText (styles : Object) : String :=
  moduleOpening ++ styles.toJson.pretty ++ moduleEnding

end Restyle.Style
