import Restyle.Css.Stylesheet
import Restyle.Style.Module
import Restyle.Style.OfRules
import Restyle.Style.ToCss

/-!
# Conversions

Style sheets become style objects and modules, style objects become style
sheets.  The two directions are not inverse: fallbacks come back as blocks, and
the properties of vendors lose their hyphen.
-/

namespace Restyle.Convert

def stylesOfCss (css : String) (o : Options) : Except Css.Problem Style.Object :=
  (Css.Stylesheet.parse css o.read).map fun sheet => Style.ofRules o sheet.rules

/-- The module of a style sheet.  A style sheet without rules has an empty one. -/
def moduleOfCss (css : String) (o : Options) : Except Css.Problem String :=
  (Css.Stylesheet.parse css o.read).map fun sheet =>
    if sheet.rules.isEmpty then "" else Style.moduleText (Style.ofRules o sheet.rules)

def cssOfJson (json : String) : Except Json.Error String :=
  (Style.Object.parseAny json).map Style.toCss

end Restyle.Convert
