import Restyle.Cli.Run
import Restyle.Proofs.StrictReading

/-!
# Names of sources

Readers do nothing with the name of their text but give it to problems (`Reading.Reports.run_named`).
Under another name a text has the same rules and the same problems with that name
(`Stylesheet.parse_named`), and where no problem is noted its module does not depend on the name nor on
whether the reader is silent (`Convert.moduleOfCss_of_silent`).
-/

namespace Restyle.Css

/-- The same problem of a text with another name. -/
def Problem.named (source : Option String) (p : Problem) : Problem :=
  { p with source := source }

/-- The same note on a text with another name. -/
def Notice.named (source : Option String) : Notice → Notice
  | .problem p => .problem (p.named source)
  | .strayBracket line => .strayBracket line

theorem filterMap_problem?_map_named (source : Option String) (notes : List Notice) :
    (notes.map (Notice.named source)).filterMap Notice.problem? =
      (notes.filterMap Notice.problem?).map (Problem.named source) := by
  induction notes with
  | nil => rfl
  | cons n notes ih =>
    cases n with
    | problem p => exact congrArg (p.named source :: ·) ih
    | strayBracket line => exact ih

namespace Reading

/-- A reader of a text with another name notes the same and ends in the same way. -/
theorem Reports.run_named {α : Type} {P : Problem.Cause → Prop} {m : Reading α} (h : Reports P m)
    (source name : Option String) (silent : Bool) :
    m ⟨name, silent⟩ = ((m ⟨source, silent⟩).1.map (Notice.named name),
      (m ⟨source, silent⟩).2.mapError (Problem.named name)) := by
  induction h with
  | pure a => rfl
  | note line => rfl
  | report hcause place => cases silent <;> rfl
  | @bind α β m f hm hf ihm ihf =>
    rw [bind_run, bind_run, ihm]
    rcases hrun : m ⟨source, silent⟩ with ⟨notes, p | a⟩
    · rfl
    · dsimp only [Except.mapError]
      rw [ihf a, List.map_append]
      rfl

end Reading

namespace Stylesheet

/-- The same style sheet of a text with another name. -/
def named (source : Option String) (sheet : Stylesheet) : Stylesheet :=
  { sheet with problems := sheet.problems.map (Problem.named source) }

/-- A text has the same style sheet under every name, but for the name in its problems. -/
theorem parse_named (css : String) (source name : Option String) (silent : Bool) :
    parse css ⟨name, silent⟩ =
      ((parse css ⟨source, silent⟩).mapError (Problem.named name)).map (Stylesheet.named name) := by
  have hreports : Reading.Reports (fun _ => True) (read css) :=
    reports_readRules (fun _ _ => trivial) _ _ _
  unfold parse
  rw [hreports.run_named source name silent]
  rcases read css ⟨source, silent⟩ with ⟨notes, p | rules⟩
  · rfl
  · dsimp only [Except.mapError, Except.map]
    rw [filterMap_problem?_map_named]
    rfl

/-- A text without problems has one style sheet, whatever its name and the mode of the reader. -/
theorem parse_of_silent {css : String} {source : Option String} {rules : List Rule}
    (h : parse css ⟨source, true⟩ = .ok ⟨rules, []⟩) (o : ReadOptions) :
    parse css o = .ok ⟨rules, []⟩ := by
  obtain ⟨name, silent⟩ := o
  have hnamed : parse css ⟨name, true⟩ = .ok ⟨rules, []⟩ := by
    rw [parse_named css source name, h]
    rfl
  cases silent with
  | true => exact hnamed
  | false =>
    obtain ⟨sheet, hsilent, hstrict⟩ := parse_strict css name
    obtain rfl := Except.ok.inj (hnamed.symm.trans hsilent)
    exact hstrict

end Stylesheet

end Restyle.Css

namespace Restyle.Convert

/-- The module of a style sheet without problems depends neither on its name nor on the mode of the
reader. -/
theorem moduleOfCss_of_silent {css name : String} (h : Cli.problemsOf css name = [])
    (unit : Option String) (dashes : Bool) (read read' : Css.ReadOptions) :
    moduleOfCss css ⟨unit, dashes, read⟩ = moduleOfCss css ⟨unit, dashes, read'⟩ := by
  obtain ⟨⟨rules, problems⟩, hsilent, -⟩ := Css.Stylesheet.parse_strict css (some name)
  unfold Cli.problemsOf at h
  rw [hsilent] at h
  obtain rfl : problems = [] := h
  have hparse := Css.Stylesheet.parse_of_silent hsilent
  unfold moduleOfCss
  dsimp only
  rw [hparse read, hparse read']
  rfl

end Restyle.Convert
