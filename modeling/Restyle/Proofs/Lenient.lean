import Restyle.Proofs.StrictReading

/-!
# Silent readers never fail

A silent reader has a style sheet to give for every text, so a lenient conversion has a module for
every text, and what is left to go wrong is the reading of the file and the writing of the result.

The check that a block is exhausted once its inside has been read is the one place where a silent
reader could stop.  A reader of the inside leaves its cursor anywhere (`Cursor.Onward`), and from
there draining ends where it ends from the front of the block (`Cursor.Onward.drain_eq`), at a cursor
that is exhausted.
-/

namespace Restyle.Css

/-- The second cursor is one that reading on from the first leads to. -/
inductive Cursor.Onward (c : Cursor) : Cursor → Prop
  | here : Onward c c
  | next {d e : Cursor} {t : Token} (way : Onward c d) (step : d.next? = some (t, e)) : Onward c e

theorem Cursor.Onward.drain_eq {c d : Cursor} (h : Onward c d) : d.drain = c.drain := by
  induction h with
  | here => rfl
  | next _ step ih => rw [← drain_of_next? step, ih]

/-- What is said of a block that goes on is said of nothing else. -/
theorem Problem.Cause.message_ne_of_ne_unbalanced {cause : Problem.Cause}
    (h : cause ≠ .unbalanced) : cause.message ≠ "unbalanced block" := by
  cases cause with
  | unbalanced => exact absurd rfl h
  | noBlock construct => cases construct <;> decide
  | openBlock construct => cases construct <;> decide
  | _ => decide

namespace Stylesheet

theorem cause_ne_unbalanced (css : String) (o : ReadOptions) :
    (∀ p ∈ (read css o).1.filterMap Notice.problem?, p.cause ≠ .unbalanced) ∧
      ∀ p, (read css o).2 = .error p → p.cause ≠ .unbalanced := by
  have reports : Reading.Reports (· ≠ .unbalanced) (read css) :=
    reports_readRules (fun _ h => h) _ _ _
  exact reports.cause o

/-- No text is found to be unbalanced, neither on the way nor at the end. -/
theorem message_ne_unbalanced (css : String) (o : ReadOptions) :
    (∀ sheet, parse css o = .ok sheet → ∀ p ∈ sheet.problems, p.message ≠ "unbalanced block") ∧
      ∀ p, parse css o = .error p → p.message ≠ "unbalanced block" := by
  obtain ⟨noted, fatal⟩ := cause_ne_unbalanced css o
  unfold parse
  rcases hread : read css o with ⟨notes, q | rules⟩ <;> rw [hread] at noted fatal
  · refine ⟨fun sheet h => ?_, fun p h => ?_⟩
    · cases h
    · obtain rfl := Except.error.inj h
      exact Problem.Cause.message_ne_of_ne_unbalanced (fatal q rfl)
  · refine ⟨fun sheet h p hp => ?_, fun p h => ?_⟩
    · obtain rfl := Except.ok.inj h
      exact Problem.Cause.message_ne_of_ne_unbalanced (noted p hp)
    · cases h

theorem exists_parse_silent (css : String) (source : Option String) :
    ∃ sheet, parse css ⟨source, true⟩ = .ok sheet :=
  (parse_strict css source).imp fun _ h => h.1

theorem exists_moduleOfCss_lenient (css : String) (unit : Option String) (dashes : Bool)
    (source : Option String) :
    ∃ text, Convert.moduleOfCss css ⟨unit, dashes, ⟨source, true⟩⟩ = .ok text := by
  obtain ⟨sheet, hsheet⟩ := exists_parse_silent css source
  unfold Convert.moduleOfCss
  rw [hsheet]
  exact ⟨_, rfl⟩

/-- How a lenient run of the program ends, given the module of each text: it fails if its text cannot
be read or its module cannot be written. -/
def lenientRun {m : Type → Type} [Monad m] (host : Cli.Host m) (path : String)
    (output : Option String) (module : String → String) : m Cli.Ending := do
  match ← Cli.source host path with
  | .error ending => return ending
  | .ok css =>
    match ← output.elim (host.print (module css)) (host.write · (module css)) with
    | .ok () => return { exit := 0 }
    | .error e =>
      return Cli.failed ("failed to write " ++ output.getD "stdout" ++ ": " ++ e.message)

theorem run_lenient {m : Type → Type} [Monad m] [LawfulMonad m] (host : Cli.Host m) (path : String)
    (unit : Option String) (dashes : Bool) (output : Option String) {module : String → String}
    (h : ∀ css, Convert.moduleOfCss css (Cli.moduleOptions path unit dashes true) =
      .ok (module css)) :
    Cli.run host (.toModule path unit dashes true output) =
      lenientRun host path output module := by
  unfold Cli.run Cli.convert lenientRun
  refine bind_congr fun text => ?_
  cases text with
  | error ending => rfl
  | ok css =>
    dsimp only
    rw [h]
    dsimp only [Except.mapError, Cli.deliver]
    rw [map_eq_pure_bind]
    refine bind_congr fun result => ?_
    cases result <;> rfl

/-- **Lenient conversion never fails.**  A silent reader gives a style sheet for every text, a
lenient conversion a module, and a lenient run of the program ends as its reading and writing do.  In
either mode no text is said to be unbalanced: wherever in a block a reader stops, draining takes it
to the same place, and there the block is exhausted.  So `check` always lists the problems of a style
sheet. -/
theorem lenient_never_fails :
    (∀ css source, ∃ sheet, parse css ⟨source, true⟩ = .ok sheet) ∧
    (∀ css unit dashes source, ∃ text,
      Convert.moduleOfCss css ⟨unit, dashes, ⟨source, true⟩⟩ = .ok text) ∧
    (∀ path unit dashes, ∃ module : String → String,
      (∀ css, Convert.moduleOfCss css (Cli.moduleOptions path unit dashes true) =
        .ok (module css)) ∧
      ∀ (m : Type → Type) [Monad m] [LawfulMonad m] (host : Cli.Host m) output,
        Cli.run host (.toModule path unit dashes true output) =
          lenientRun host path output module) ∧
    (∀ css o,
      (∀ sheet, parse css o = .ok sheet → ∀ p ∈ sheet.problems, p.message ≠ "unbalanced block") ∧
        ∀ p, parse css o = .error p → p.message ≠ "unbalanced block") ∧
    (∀ contents d, Cursor.Onward (.inside contents) d →
      d.drain = (Cursor.inside contents).drain ∧ d.drain.isExhausted = true) ∧
    (∀ (α : Type) contents stop (inside : Reading α),
      Body.readInside contents stop inside = inside) ∧
    ∀ css name, ∃ sheet, parse css ⟨some name, true⟩ = .ok sheet ∧
      Cli.problemsOf css name = sheet.problems := by
  refine ⟨exists_parse_silent, exists_moduleOfCss_lenient, fun path unit dashes => ?_,
    message_ne_unbalanced, fun contents d onward => ⟨onward.drain_eq, d.isExhausted_drain⟩,
    fun α contents stop inside => Body.readInside_eq contents stop inside, fun css name => ?_⟩
  · obtain ⟨module, hmodule⟩ : ∃ module : String → String, ∀ css,
        Convert.moduleOfCss css (Cli.moduleOptions path unit dashes true) = .ok (module css) :=
      Classical.axiomOfChoice fun css =>
        exists_moduleOfCss_lenient css unit dashes (some (Cli.displayName path))
    exact ⟨module, hmodule, fun m _ _ host output =>
      run_lenient host path unit dashes output hmodule⟩
  · obtain ⟨sheet, hsheet⟩ := exists_parse_silent css (some name)
    refine ⟨sheet, hsheet, ?_⟩
    unfold Cli.problemsOf
    rw [hsheet]

/-- Nested blocks that are all left open, and a cursor in front of the innermost. -/
theorem lenient_of_open_blocks :
    ∃ sheet, parse "@media a\x7bb\x7b(" ⟨none, true⟩ = .ok sheet ∧
      (∀ p ∈ sheet.problems, p.message ≠ "unbalanced block") ∧
      ∃ d, Cursor.Onward (.inside (Component.ofText Location.start "b\x7b(".toList)) d ∧
        d.opened = some .curly ∧ d.drain.isExhausted = true := by
  obtain ⟨silent, -, -, unsaid, exhausted, -⟩ := lenient_never_fails
  obtain ⟨sheet, hsheet⟩ := silent "@media a\x7bb\x7b(" none
  let contents := Component.ofText Location.start "b\x7b(".toList
  let paren : Token := ⟨.opening .round, ['('], ⟨1, 3⟩⟩
  let curly : Token := ⟨.opening .curly, ['\x7b'], ⟨1, 2⟩⟩
  have first : (Cursor.inside contents).next? =
      some (⟨.ident, ['b'], ⟨1, 1⟩⟩, ⟨[curly, paren], none, some .curly⟩) := by decide +kernel
  have onward : Cursor.Onward (.inside contents) ⟨[paren], some .curly, some .curly⟩ :=
    .next (.next .here first) rfl
  exact ⟨sheet, hsheet, (unsaid _ _).1 sheet hsheet, _, onward, rfl, (exhausted _ _ onward).2⟩

end Stylesheet

end Restyle.Css
