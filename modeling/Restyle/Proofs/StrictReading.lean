import Restyle.Cli.Run
import Restyle.Proofs.Readers

/-!
# Strict and silent readers agree

A strict reader stops where a silent one makes its first note of a problem.  What a strict reader
has noted and how it ends can therefore be told from the notes of the silent one: `cutShort` keeps
the notes in front of the first problem and fails with it.

`Reading.InStep` says this of a computation.  It holds of a report and of everything that is put
together from computations in step, hence of every reader (`Reading.Reports.inStep`); nested blocks
and skipped blocks need no argument of their own, because both modes walk over the same components.
-/

namespace Restyle.Css

namespace Reading

variable {α β : Type}

/-- What is left of a silent run with these notes when the first problem stops it. -/
def cutShort : List Notice → α → List Notice × Except Problem α
  | [], a => ([], .ok a)
  | .problem p :: _, _ => ([], .error p)
  | .strayBracket line :: notes, a =>
    (.strayBracket line :: (cutShort notes a).1, (cutShort notes a).2)

/-- A silent run ends with a result, and the strict run is this run cut short. -/
def InStep (m : Reading α) : Prop :=
  ∀ source, ∃ notes a, m ⟨source, true⟩ = (notes, .ok a) ∧
    m ⟨source, false⟩ = cutShort notes a

/-- Cutting short respects the order of two runs: the second counts only if the first got to its
end. -/
theorem cutShort_append (notes notes' : List Notice) (a : α) (b : β) :
    cutShort (notes ++ notes') b = match cutShort notes a with
      | (kept, .error p) => (kept, .error p)
      | (kept, .ok _) => (kept ++ (cutShort notes' b).1, (cutShort notes' b).2) := by
  induction notes with
  | nil => simp [cutShort]
  | cons n notes ih =>
    cases n with
    | problem p => simp [cutShort]
    | strayBracket line =>
      simp only [List.cons_append, cutShort, ih]
      rcases cutShort notes a with ⟨kept, p | a'⟩ <;> rfl

/-- A run that is cut short fails with the first problem, if there is one. -/
theorem cutShort_snd (notes : List Notice) (a : α) :
    (cutShort notes a).2 = match notes.filterMap Notice.problem? with
      | [] => .ok a
      | p :: _ => .error p := by
  induction notes with
  | nil => rfl
  | cons n notes ih =>
    cases n with
    | problem p => rfl
    | strayBracket line => exact ih

/-- No problem is among the notes that are kept. -/
theorem problems_cutShort (notes : List Notice) (a : α) :
    (cutShort notes a).1.filterMap Notice.problem? = [] := by
  induction notes with
  | nil => rfl
  | cons n notes ih =>
    cases n with
    | problem p => rfl
    | strayBracket line => exact ih

theorem inStep_pure (a : α) : InStep (pure a : Reading α) :=
  fun _ => ⟨[], a, rfl, rfl⟩

theorem inStep_note (line : Nat) : InStep (note (.strayBracket line)) :=
  fun _ => ⟨[.strayBracket line], (), rfl, rfl⟩

theorem inStep_report (cause : Problem.Cause) (place : Location) : InStep (report cause place) :=
  fun source => ⟨[.problem ⟨cause, place, source⟩], (), rfl, rfl⟩

theorem InStep.bind {m : Reading α} {f : α → Reading β} (hm : InStep m)
    (hf : ∀ a, InStep (f a)) : InStep (m >>= f) := by
  intro source
  obtain ⟨notes, a, silent, strict⟩ := hm source
  obtain ⟨notes', b, silent', strict'⟩ := hf a source
  refine ⟨notes ++ notes', b, ?_, ?_⟩
  · rw [bind_run, silent]
    simp only [silent']
  · rw [bind_run, strict, cutShort_append notes notes' a b]
    have same : ∀ a', (cutShort notes a).2 = .ok a' → a' = a := by
      intro a' h
      rw [cutShort_snd] at h
      split at h
      · exact (Except.ok.inj h).symm
      · cases h
    rcases h : cutShort notes a with ⟨kept, p | a'⟩
    · rfl
    · obtain rfl := same a' (by rw [h])
      simp only [strict']

theorem Reports.inStep {P : Problem.Cause → Prop} {m : Reading α} (h : Reports P m) :
    InStep m := by
  induction h with
  | pure a => exact inStep_pure a
  | note line => exact inStep_note line
  | report _ place => exact inStep_report _ place
  | bind _ _ ihm ihf => exact ihm.bind ihf

end Reading

open Reading

/-! ## Every reader is in step -/

theorem inStep_readDeclarations (cs : List Component) : InStep (readDeclarations cs) :=
  (reports_readDeclarations (P := fun _ => True) (fun _ _ => trivial) cs).inStep

theorem Body.inStep_read {α : Type} (construct : Construct) (body : Body) {inside : Reading α}
    (h : InStep inside) : InStep (body.read construct inside) := by
  cases body with
  | missing place => exact (inStep_report _ _).bind fun _ => inStep_pure _
  | block contents stop closed =>
    rw [read_block]
    refine h.bind fun a => ?_
    cases closed with
    | true => exact inStep_pure _
    | false => exact (inStep_report _ _).bind fun _ => inStep_pure _

theorem Statement.Flat.inStep_read (statement : Statement.Flat) : InStep statement.read :=
  (statement.reports_read (P := fun _ => True) (fun _ _ => trivial) fun _ _ _ => trivial).inStep

theorem inStep_readRules (stop : Location) (skipped : Option Skipped) (cs : List Component) :
    InStep (readRules stop skipped cs) :=
  (reports_readRules (P := fun _ => True) (fun _ _ => trivial) stop skipped cs).inStep

/-! ## Style sheets -/

namespace Stylesheet

/-- A strict reader fails with the first problem that a silent one notes, and otherwise gives the
same style sheet. -/
theorem parse_strict (css : String) (source : Option String) :
    ∃ s, parse css ⟨source, true⟩ = .ok s ∧
      parse css ⟨source, false⟩ = match s.problems with
        | [] => .ok s
        | p :: _ => .error p := by
  have inStep : InStep (read css) := inStep_readRules _ _ _
  obtain ⟨notes, rules, silent, strict⟩ := inStep source
  refine ⟨⟨rules, notes.filterMap Notice.problem?⟩, by simp only [parse, silent], ?_⟩
  have result := cutShort_snd notes rules
  have kept := problems_cutShort notes rules
  simp only [parse, strict]
  rcases h : cutShort notes rules with ⟨left, p | rules'⟩ <;> rw [h] at result kept
  · cases problems : notes.filterMap Notice.problem? with
    | nil => simp [problems] at result
    | cons q _ => simpa [problems] using result
  · cases problems : notes.filterMap Notice.problem? with
    | nil =>
      simp only [problems, Except.ok.injEq] at result
      simp [result, kept]
    | cons q _ => simp [problems] at result

/-- **Strict and silent readers agree.**  The silent reader has a style sheet to give for every
text; the strict one gives the same if no problem is noted, and otherwise fails with the first.  So
`check` finds nothing wrong exactly when a conversion that is not lenient gets through, and the
problem at which the conversion fails is the first that `check` lists. -/
theorem strict_iff_silent (css : String) (source : Option String) :
    (∃ s, parse css ⟨source, true⟩ = .ok s ∧
      (∀ t, parse css ⟨source, false⟩ = .ok t ↔ s.problems = [] ∧ t = s) ∧
      (∀ p, parse css ⟨source, false⟩ = .error p ↔ s.problems.head? = some p)) ∧
    ∀ path unit dashes,
      ((Cli.checked css (Cli.displayName path)).exit = 0 ↔
        ∃ text, Convert.moduleOfCss css (Cli.moduleOptions path unit dashes false) = .ok text) ∧
      ∀ p, Convert.moduleOfCss css (Cli.moduleOptions path unit dashes false) = .error p ↔
        (Cli.problemsOf css (Cli.displayName path)).head? = some p := by
  refine ⟨?_, fun path unit dashes => ?_⟩
  · obtain ⟨s, silent, strict⟩ := parse_strict css source
    refine ⟨s, silent, fun t => ?_, fun p => ?_⟩
    · rw [strict]
      cases s.problems <;> simp [eq_comm]
    · rw [strict]
      cases s.problems <;> simp
  · obtain ⟨s, silent, strict⟩ := parse_strict css (some (Cli.displayName path))
    have found : Cli.problemsOf css (Cli.displayName path) = s.problems := by
      simp only [Cli.problemsOf, silent]
    have converted : Convert.moduleOfCss css (Cli.moduleOptions path unit dashes false) =
        (match s.problems with
          | [] => .ok s
          | p :: _ => .error p : Except Problem Stylesheet).map fun sheet =>
            if sheet.rules.isEmpty then "" else Style.moduleText
              (Style.ofRules (Cli.moduleOptions path unit dashes false) sheet.rules) := by
      rw [← strict]; rfl
    rw [converted, Cli.checked, found]
    cases s.problems <;> simp [Except.map]

end Stylesheet

end Restyle.Css
