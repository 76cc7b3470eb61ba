import Restyle.Css.Stylesheet
import Restyle.Proofs.Forms

/-!
# What readers are made of

Every reader is put together from results, notes of stray brackets and reports of problems, and the
inside of a block adds nothing to that: `Body.readInside` is the one place where a reader could stop
otherwise, and it never does.  `Reading.Reports` says so of a computation, together with what the
causes are that it reports.  What holds of results, notes and reports and is kept by doing one thing
after another therefore holds of every reader, by induction on `Reports`.
-/

namespace Restyle.Css

namespace Reading

variable {P : Problem.Cause → Prop}

/-- A computation made of results, notes and reports of problems with certain causes. -/
inductive Reports (P : Problem.Cause → Prop) : {α : Type} → Reading α → Prop
  | pure {α : Type} (a : α) : Reports P (pure a : Reading α)
  | note (line : Nat) : Reports P (note (.strayBracket line))
  | report {cause : Problem.Cause} (h : P cause) (place : Location) :
    Reports P (report cause place)
  | bind {α β : Type} {m : Reading α} {f : α → Reading β} (hm : Reports P m)
    (hf : ∀ a, Reports P (f a)) : Reports P (m >>= f)

theorem Reports.map {α β : Type} (f : α → β) {m : Reading α} (h : Reports P m) :
    Reports P (f <$> m) := by
  rw [map_eq_pure_bind]
  exact h.bind fun a => .pure (f a)

/-- Every problem of such a computation, noted or fatal, has one of the causes. -/
theorem Reports.cause {α : Type} {m : Reading α} (h : Reports P m) (o : ReadOptions) :
    (∀ p ∈ (m o).1.filterMap Notice.problem?, P p.cause) ∧
      ∀ p, (m o).2 = .error p → P p.cause := by
  induction h with
  | pure a =>
    refine ⟨fun p hp => ?_, fun p hp => ?_⟩
    · cases hp
    · cases hp
  | note line =>
    refine ⟨fun p hp => ?_, fun p hp => ?_⟩
    · cases hp
    · cases hp
  | report hcause place =>
    unfold Reading.report
    dsimp only
    split
    · refine ⟨fun p hp => ?_, fun p hp => ?_⟩
      · obtain rfl := List.mem_singleton.1 hp
        exact hcause
      · cases hp
    · refine ⟨fun p hp => ?_, fun p hp => ?_⟩
      · cases hp
      · obtain rfl := Except.error.inj hp
        exact hcause
  | @bind α β m f hm hf ihm ihf =>
    rw [bind_run]
    obtain ⟨noted, fatal⟩ := ihm
    rcases hrun : m o with ⟨notes, q | a⟩
    · rw [hrun] at noted fatal
      refine ⟨noted, fun p hp => ?_⟩
      obtain rfl := Except.error.inj hp
      exact fatal q rfl
    · rw [hrun] at noted
      obtain ⟨noted', fatal'⟩ := ihf a
      refine ⟨fun p hp => ?_, fatal'⟩
      rw [List.filterMap_append] at hp
      rcases List.mem_append.1 hp with hp | hp
      · exact noted p hp
      · exact noted' p hp

end Reading

open Reading

/-! ## Every reader is made of reports -/

section

variable {P : Problem.Cause → Prop} (hP : ∀ cause, cause ≠ .unbalanced → P cause)

include hP

theorem reports_readComment (body text : List Char) (place : Location) :
    Reports P (readComment body text place) := by
  unfold readComment
  split
  · exact .pure _
  · exact (Reports.report (hP .unclosedComment nofun) _).bind fun _ => .pure _

theorem reports_readChunk (cs : List Component) : Reports P (readChunk cs) := by
  induction cs with
  | nil => exact .pure _
  | cons c cs ih =>
    unfold readChunk
    split
    · exact ih
    · split
      · exact (reports_readComment hP _ _ _).bind fun _ => ih.map _
      · split
        · exact .pure _
        · exact (Reports.report (hP .noProperty nofun) _).bind fun _ => .pure _

theorem reports_readChunks (chunks : List (List Component)) : Reports P (readChunks chunks) := by
  induction chunks with
  | nil => exact .pure _
  | cons chunk chunks ih => exact (reports_readChunk hP chunk).bind fun _ => ih.map _

theorem reports_readDeclarations (cs : List Component) : Reports P (readDeclarations cs) :=
  reports_readChunks hP _

theorem Body.reports_read {α : Type} (construct : Construct) (body : Body) {inside : Reading α}
    (h : Reports P inside) : Reports P (body.read construct inside) := by
  cases body with
  | missing place => exact (Reports.report (hP (.noBlock construct) nofun) _).bind fun _ => .pure _
  | block contents stop closed =>
    rw [read_block]
    refine h.bind fun a => ?_
    cases closed with
    | true => exact .pure _
    | false => exact (Reports.report (hP (.openBlock construct) nofun) _).bind fun _ => .pure _

theorem reports_readFrame (moments : List String) (body : Body) :
    Reports P (readFrame moments body) :=
  (body.reports_read hP _ (reports_readDeclarations hP _)).bind fun _ => .pure _

theorem reports_readFrames (stop : Location) (skipped : Option Skipped) (cs : List Component) :
    Reports P (readFrames stop skipped cs) := by
  fun_induction readFrames stop skipped cs with
  | case1 => exact .pure _
  | case2 _ _ _ _ ih => exact ih
  | case3 _ _ _ _ _ ih => exact (reports_readComment hP _ _ _).bind fun _ => ih.map _
  | case4 _ _ _ _ _ _ _ ih => exact (Reports.report (hP .noSelector nofun) _).bind fun _ => ih
  | case5 _ _ _ _ _ _ _ _ ih => exact (reports_readFrame hP _ _).bind fun _ => ih.map _

theorem Statement.Flat.reports_read (statement : Statement.Flat)
    (h : ∀ cause place, statement = .refused cause place → P cause) :
    Reports P statement.read := by
  cases statement with
  | gap => exact .pure _
  | comment body text place => exact (reports_readComment hP _ _ _).bind fun _ => .pure _
  | strayBracket place => exact (Reports.note _).bind fun _ => .pure _
  | refused cause place => exact (Reports.report (h cause place rfl) _).bind fun _ => .pure _
  | style selectors body =>
    exact (body.reports_read hP _ (reports_readDeclarations hP _)).bind fun _ => .pure _
  | keyframes name vendor body =>
    exact (body.reports_read hP _ (reports_readFrames hP _ _ _)).bind fun _ => .pure _
  | fontFace body =>
    exact (body.reports_read hP _ (reports_readDeclarations hP _)).bind fun _ => .pure _
  | page selectors body =>
    exact (body.reports_read hP _ (reports_readDeclarations hP _)).bind fun _ => .pure _
  | whole rule => exact .pure _

end

namespace Statement

/-- A statement is refused for want of a selector or of a name only. -/
theorem cause_of_cutStyle {stop : Location} {skipped : Option Skipped} {c : Component}
    {cs : List Component} {cause : Problem.Cause} {place : Location}
    (h : (cutStyle stop skipped c cs).statement = .flat (.refused cause place)) :
    cause = .noSelector ∨ cause = .namelessKeyframes := by
  unfold cutStyle at h
  dsimp only at h
  split at h
  · cases h
    exact .inl rfl
  · cases h

theorem cause_of_cutAtRule {stop : Location} {skipped : Option Skipped} {keyword : Token}
    {c : Component} {cs : List Component} {cause : Problem.Cause} {place : Location}
    (h : (cutAtRule stop skipped keyword c cs).statement = .flat (.refused cause place)) :
    cause = .noSelector ∨ cause = .namelessKeyframes := by
  rw [cutAtRule_eq] at h
  split at h
  · exact cause_of_cutStyle h
  · next form _ =>
    cases form with
    | keyframes vendor =>
      dsimp only [cutForm, cutKeyframes] at h
      split at h
      · cases h
        exact .inr rfl
      · cases h
    | _ => cases h

theorem cause_of_cut {stop : Location} {skipped : Option Skipped} {c : Component}
    {cs : List Component} {cause : Problem.Cause} {place : Location}
    (h : (cut stop skipped c cs).statement = .flat (.refused cause place)) :
    cause = .noSelector ∨ cause = .namelessKeyframes := by
  unfold cut at h
  split at h
  · exact cause_of_cutStyle h
  · split at h
    case h_7 => exact cause_of_cutAtRule h
    case h_8 => exact cause_of_cutStyle h
    all_goals cases h

end Statement

theorem reports_readRules {P : Problem.Cause → Prop} (hP : ∀ cause, cause ≠ .unbalanced → P cause)
    (stop : Location) (skipped : Option Skipped) (cs : List Component) :
    Reports P (readRules stop skipped cs) := by
  fun_induction readRules stop skipped cs with
  | case1 => exact .pure _
  | case2 stop skipped c cs statement next rest hcut ih =>
    refine (statement.reports_read hP fun cause place hrefused => ?_).bind fun _ => ih.map _
    have hstatement : (Statement.cut stop skipped c cs).statement = .flat (.refused cause place) := by
      rw [hcut, hrefused]
    rcases Statement.cause_of_cut hstatement with rfl | rfl
    · exact hP _ nofun
    · exact hP _ nofun
  | case3 _ _ _ _ _ body _ _ _ inner ih =>
    exact (body.reports_read hP _ inner).bind fun _ => ih.map _

end Restyle.Css
