import Mathlib.Data.List.TakeWhile
import Restyle.Css.Stylesheet
import Restyle.Proofs.Forms

/-!
# Levels of a style sheet

A level is read by cutting one statement off it, reading that, and going on with the rest
(`readRules_cons`).  Where a level stands behind another, the statements of the first are the same
as before, as long as the first ends in a block in curly brackets: no statement looks beyond the next
such block (`cut_append`).  What can get across is a block that was refused, since its inside is only
passed over with the next thing read; `skippedBehind` says whether there is one, and `readRules_append`
that nothing else gets across.
-/

namespace Restyle.Css

open Component

/-- Reads one statement of a level. -/
def Statement.read : Statement → Reading (List Rule)
  | .flat statement => statement.read
  | .group head body => do
    let inner ← body.read head.construct (readRules body.stop none body.contents)
    return (inner.map (Rule.group head)).toList

theorem readRules_nil (stop : Location) (skipped : Option Skipped) :
    readRules stop skipped [] = pure [] := by
  rw [readRules]

/-- A level is read statement by statement. -/
theorem readRules_cons (stop : Location) (skipped : Option Skipped) (c : Component)
    (cs : List Component) :
    readRules stop skipped (c :: cs) = (Statement.cut stop skipped c cs).statement.read >>=
      fun here => (here ++ ·) <$> readRules stop (Statement.cut stop skipped c cs).skipped
        (Statement.cut stop skipped c cs).rest := by
  rw [readRules]
  split
  · next statement next rest h => rw [h]; rfl
  · next head body next rest h =>
    rw [h]
    simp only [Statement.read, bind_assoc, pure_bind]

/-- A level is read by its first statement and what is left behind that. -/
theorem readRules_of_cut {stop : Location} {c : Component} {cs ds : List Component}
    {statement : Statement} {rules : List Rule}
    (hcut : Statement.cut stop none c cs = ⟨statement, none, ds⟩)
    (hread : statement.read = pure rules) :
    readRules stop none (c :: cs) = (rules ++ ·) <$> readRules stop none ds := by
  rw [readRules_cons, hcut]
  dsimp only
  rw [hread, pure_bind]

/-! ## The front of a longer level -/

section

variable {p : Component → Bool} {cs : List Component}

theorem takeWhile_append_of_mem (h : ∃ c ∈ cs, p c = false) (ds : List Component) :
    (cs ++ ds).takeWhile p = cs.takeWhile p := by
  induction cs with
  | nil => obtain ⟨c, hc, -⟩ := h; cases hc
  | cons c cs ih =>
    cases hc : p c with
    | false => simp [hc]
    | true =>
      obtain ⟨d, hd, hpd⟩ := h
      rcases List.mem_cons.1 hd with rfl | hd
      · rw [hc] at hpd; cases hpd
      · simp [hc, ih ⟨d, hd, hpd⟩]

theorem dropWhile_append_of_mem (h : ∃ c ∈ cs, p c = false) (ds : List Component) :
    (cs ++ ds).dropWhile p = cs.dropWhile p ++ ds := by
  induction cs with
  | nil => obtain ⟨c, hc, -⟩ := h; cases hc
  | cons c cs ih =>
    cases hc : p c with
    | false => simp [hc]
    | true =>
      obtain ⟨d, hd, hpd⟩ := h
      rcases List.mem_cons.1 hd with rfl | hd
      · rw [hc] at hpd; cases hpd
      · simp [hc, ih ⟨d, hd, hpd⟩]

theorem dropWhile_ne_nil_of_mem (h : ∃ c ∈ cs, p c = false) : cs.dropWhile p ≠ [] := by
  obtain ⟨c, hc, hpc⟩ := h
  intro hnil
  have := List.dropWhile_eq_nil_iff.1 hnil c hc
  rw [hpc] at this
  cases this

end

/-- Cutting a level leaves at least one piece. -/
theorem splitOn_ne_nil (p : Component → Bool) (cs : List Component) : splitOn p cs ≠ [] := by
  cases cs with
  | nil => exact List.cons_ne_nil _ _
  | cons c cs =>
    rw [splitOn]
    split
    · exact List.cons_ne_nil _ _
    · split <;> exact List.cons_ne_nil _ _

/-- A component that cuts nothing joins the first piece. -/
theorem exists_splitOn_cons {p : Component → Bool} {c : Component} (hc : p c = false)
    (cs : List Component) : ∃ first others, splitOn p cs = first :: others ∧
      splitOn p (c :: cs) = (c :: first) :: others := by
  obtain ⟨first, others, hsplit⟩ := List.exists_cons_of_ne_nil (splitOn_ne_nil p cs)
  refine ⟨first, others, hsplit, ?_⟩
  rw [splitOn, hc, hsplit]
  rfl

theorem splitOn_of_forall {p : Component → Bool} {cs : List Component} (h : ∀ c ∈ cs, p c = false) :
    splitOn p cs = [cs] := by
  induction cs with
  | nil => rfl
  | cons c cs ih =>
    have hc : ¬p c = true := by simp [h c List.mem_cons_self]
    rw [splitOn, if_neg hc, ih fun d hd => h d (List.mem_cons_of_mem _ hd)]

theorem splitOn_append {p : Component → Bool} {front : List Component} {c : Component}
    (hfront : ∀ d ∈ front, p d = false) (hc : p c = true) (cs : List Component) :
    splitOn p (front ++ c :: cs) = front :: splitOn p cs := by
  induction front with
  | nil => rw [List.nil_append, splitOn, if_pos hc]
  | cons d front ih =>
    have hd : ¬p d = true := by simp [hfront d List.mem_cons_self]
    rw [List.cons_append, splitOn, if_neg hd, ih fun e he => hfront e (List.mem_cons_of_mem _ he)]

theorem selectorsOf_none (cs : List Component) : selectorsOf none cs =
    (splitOn isComma cs).map fun piece => String.ofList (Text.trim (plainText piece)) := by
  unfold selectorsOf
  dsimp only
  split
  · next hsplit => exact absurd hsplit (splitOn_ne_nil _ _)
  · next hsplit => rw [hsplit]; rfl

theorem Component.plainText_comment {c : Component} (h : c.isComment = true) (cs : List Component) :
    plainText (c :: cs) = plainText cs := by
  rw [plainText, List.filter_cons_of_neg (by rw [h]; exact Bool.false_ne_true), plainText]

theorem Component.plainText_cons {c : Component} (h : c.isComment = false) (cs : List Component) :
    plainText (c :: cs) = c.text ++ plainText cs := by
  rw [plainText, List.filter_cons_of_pos (by rw [h]; rfl), List.flatMap_cons, plainText]

theorem Skipped.ofLevel_append {cs : List Component} (h : cs ≠ []) (ds : List Component) :
    Skipped.ofLevel (cs ++ ds) = ((Skipped.ofLevel cs).1, (Skipped.ofLevel cs).2 ++ ds) := by
  rcases cs with _ | ⟨_ | ⟨opener, contents, closer⟩, cs⟩
  · exact absurd rfl h
  · rfl
  · by_cases hopener : opener.kind = .opening .curly <;> simp [Skipped.ofLevel, hopener]

theorem Body.ofLevel_append (stop : Location) {cs : List Component} (h : cs ≠ [])
    (ds : List Component) :
    Body.ofLevel stop (cs ++ ds) = ((Body.ofLevel stop cs).1, (Body.ofLevel stop cs).2 ++ ds) := by
  rcases cs with _ | ⟨_ | ⟨opener, contents, closer⟩, cs⟩
  · exact absurd rfl h
  · rfl
  · by_cases hopener : opener.kind = .opening .curly <;> simp [Body.ofLevel, hopener]

theorem AtRule.afterEnd?_append {cs : List Component} (h : cs ≠ []) (ds : List Component) :
    AtRule.afterEnd? (cs ++ ds) = (AtRule.afterEnd? cs).map (· ++ ds) := by
  cases cs with
  | nil => exact absurd rfl h
  | cons c cs => cases hc : c.isSemicolon <;> simp [AtRule.afterEnd?, hc]

theorem Skipped.ofLevel_suffix (cs : List Component) : (Skipped.ofLevel cs).2 <:+ cs := by
  rcases cs with _ | ⟨_ | ⟨opener, contents, closer⟩, cs⟩
  · exact List.suffix_rfl
  · exact List.suffix_rfl
  · by_cases hopener : opener.kind = .opening .curly <;> simp [Skipped.ofLevel, hopener]

theorem Body.ofLevel_suffix (stop : Location) (cs : List Component) :
    (Body.ofLevel stop cs).2 <:+ cs := by
  rcases cs with _ | ⟨_ | ⟨opener, contents, closer⟩, cs⟩
  · exact List.suffix_rfl
  · exact List.suffix_rfl
  · by_cases hopener : opener.kind = .opening .curly <;> simp [Body.ofLevel, hopener]

theorem AtRule.statement?_suffix {cs rest : List Component} {text : String}
    (h : AtRule.statement? cs = some (text, rest)) : rest <:+ cs := by
  unfold AtRule.statement? at h
  dsimp only at h
  split at h
  · cases h
  · obtain ⟨rest', hrest, heq⟩ := Option.map_eq_some_iff.1 h
    obtain ⟨-, rfl⟩ := Prod.mk.inj heq
    have behind : fromEnd cs <:+ cs := List.dropWhile_suffix _
    cases hend : fromEnd cs with
    | nil =>
      rw [hend] at hrest
      obtain rfl := Option.some.inj hrest
      exact List.nil_suffix
    | cons c ds =>
      rw [hend] at hrest behind
      simp only [AtRule.afterEnd?, Option.ite_none_right_eq_some, Option.some.injEq] at hrest
      obtain ⟨-, rfl⟩ := hrest
      exact (List.suffix_cons c _).trans behind

namespace Component

/-- Whether a component ends the prelude of an at-rule. -/
def isEnd (c : Component) : Bool := c.isCurly || c.isSemicolon

section

variable {front : List Component} (hfront : ∀ d ∈ front, d.isEnd = false) {c : Component}
  (hc : c.isEnd = true)

include hfront hc

/-- The prelude of an at-rule is what stands in front of its end. -/
theorem untilEnd_of_isEnd (ds : List Component) : untilEnd (front ++ c :: ds) = front := by
  have hpass : ∀ d ∈ front, (!d.isEnd) = true := fun d hd => by
    rw [hfront d hd]
    rfl
  have hstop : (!c.isEnd) = false := by rw [hc]; rfl
  refine (List.takeWhile_append_of_pos hpass).trans ?_
  rw [List.takeWhile_cons, hstop]
  simp

theorem fromEnd_of_isEnd (ds : List Component) : fromEnd (front ++ c :: ds) = c :: ds := by
  have hpass : ∀ d ∈ front, (!d.isEnd) = true := fun d hd => by
    rw [hfront d hd]
    rfl
  have hstop : (!c.isEnd) = false := by rw [hc]; rfl
  refine (List.dropWhile_append_of_pos hpass).trans ?_
  rw [List.dropWhile_cons, hstop]
  simp

end

theorem exists_isEnd_of_isCurly {cs : List Component} (h : ∃ c ∈ cs, c.isCurly = true) :
    ∃ c ∈ cs, c.isEnd = true := by
  obtain ⟨c, hc, hcurly⟩ := h
  exact ⟨c, hc, by rw [isEnd, hcurly]; rfl⟩

theorem exists_not_before {cs : List Component} {p : Component → Bool} (h : ∃ c ∈ cs, p c = true) :
    ∃ c ∈ cs, (!p c) = false := by
  obtain ⟨c, hc, hp⟩ := h
  exact ⟨c, hc, by rw [hp]; rfl⟩

section

variable {cs : List Component} (h : ∃ c ∈ cs, c.isCurly = true) (ds : List Component)

include h

theorem untilCurly_append : untilCurly (cs ++ ds) = untilCurly cs :=
  takeWhile_append_of_mem (exists_not_before h) ds

theorem fromCurly_append : fromCurly (cs ++ ds) = fromCurly cs ++ ds :=
  dropWhile_append_of_mem (exists_not_before h) ds

theorem fromCurly_ne_nil : fromCurly cs ≠ [] :=
  dropWhile_ne_nil_of_mem (exists_not_before h)

end

section

variable {cs : List Component} (h : ∃ c ∈ cs, c.isEnd = true) (ds : List Component)

include h

theorem untilEnd_append : untilEnd (cs ++ ds) = untilEnd cs :=
  takeWhile_append_of_mem (exists_not_before h) ds

theorem fromEnd_append : fromEnd (cs ++ ds) = fromEnd cs ++ ds :=
  dropWhile_append_of_mem (exists_not_before h) ds

theorem fromEnd_ne_nil : fromEnd cs ≠ [] :=
  dropWhile_ne_nil_of_mem (exists_not_before h)

end

end Component

theorem AtRule.statement?_append {cs : List Component} (h : ∃ c ∈ cs, c.isEnd = true)
    (ds : List Component) : AtRule.statement? (cs ++ ds) =
    (AtRule.statement? cs).map fun p => (p.1, p.2 ++ ds) := by
  simp only [AtRule.statement?, untilEnd_append h, fromEnd_append h,
    AtRule.afterEnd?_append (fromEnd_ne_nil h)]
  split
  · rfl
  · cases AtRule.afterEnd? (fromEnd cs) <;> rfl

theorem AtRule.form?_append {keyword : Token} {cs : List Component}
    (h : ∃ c ∈ cs, c.isEnd = true) (ds : List Component) :
    form? keyword (cs ++ ds) = (form? keyword cs).map (Form.mapRest (· ++ ds)) :=
  form?_of_statement? (statement?_append h ds)

namespace Statement

/-- What has been cut off, with more behind what is left. -/
def Cut.append (cut : Cut) (ds : List Component) : Cut := { cut with rest := cut.rest ++ ds }

section

variable (stop : Location) (skipped : Option Skipped) {c : Component} {cs : List Component}
  (ds : List Component)

theorem cutStyle_append (h : ∃ d ∈ c :: cs, d.isCurly = true) :
    cutStyle stop skipped c (cs ++ ds) = (cutStyle stop skipped c cs).append ds := by
  unfold cutStyle
  dsimp only
  rw [← List.cons_append, untilCurly_append h, fromCurly_append h,
    Skipped.ofLevel_append (fromCurly_ne_nil h), Body.ofLevel_append _ (fromCurly_ne_nil h)]
  split <;> rfl

theorem cutGroup_append (head : String → Group) (h : ∃ d ∈ cs, d.isEnd = true) :
    cutGroup stop head (cs ++ ds) = (cutGroup stop head cs).append ds := by
  rw [cutGroup, untilEnd_append h, fromEnd_append h, Body.ofLevel_append _ (fromEnd_ne_nil h)]
  rfl

theorem cutKeyframes_append (vendor : Option String) (place : Location)
    (h : ∃ d ∈ cs, d.isEnd = true) :
    cutKeyframes stop vendor place (cs ++ ds) = (cutKeyframes stop vendor place cs).append ds := by
  unfold cutKeyframes
  dsimp only
  rw [untilEnd_append h, fromEnd_append h, Skipped.ofLevel_append (fromEnd_ne_nil h),
    Body.ofLevel_append _ (fromEnd_ne_nil h)]
  split <;> rfl

/-- An at-rule does not look beyond its end, and one that looks for a block only does not look beyond
that. -/
theorem cutAtRule_append (keyword : Token) (hend : ∃ d ∈ cs, d.isEnd = true)
    (hcurly : AtRule.wantsBlock keyword cs = true → ∃ d ∈ cs, d.isCurly = true) :
    cutAtRule stop skipped keyword c (cs ++ ds) =
      (cutAtRule stop skipped keyword c cs).append ds := by
  unfold AtRule.wantsBlock at hcurly
  rw [cutAtRule_eq, cutAtRule_eq, AtRule.form?_append hend]
  cases hform : AtRule.form? keyword cs with
  | none =>
    rw [hform] at hcurly
    obtain ⟨d, hd, hisCurly⟩ := hcurly rfl
    exact cutStyle_append stop skipped ds ⟨d, List.mem_cons_of_mem _ hd, hisCurly⟩
  | some form =>
    rw [hform] at hcurly
    cases form with
    | group head => exact cutGroup_append _ _ _ hend
    | keyframes vendor => exact cutKeyframes_append _ _ _ _ hend
    | page =>
      have h := hcurly rfl
      simp only [Option.map_some, AtRule.Form.mapRest, cutForm]
      rw [untilCurly_append h, fromCurly_append h, Body.ofLevel_append _ (fromCurly_ne_nil h)]
      rfl
    | fontFace =>
      simp only [Option.map_some, AtRule.Form.mapRest, cutForm]
      rw [fromEnd_append hend, Body.ofLevel_append _ (fromEnd_ne_nil hend)]
      rfl
    | whole rule rest => rfl

/-- A statement does not look beyond the next block in curly brackets. -/
theorem cut_append (h : ∃ d ∈ c :: cs, d.isCurly = true) :
    cut stop skipped c (cs ++ ds) = (cut stop skipped c cs).append ds := by
  have style := cutStyle_append stop skipped ds h
  cases c with
  | block opener contents closer => exact style
  | leaf t =>
    have inRest : ∃ d ∈ cs, d.isCurly = true := by
      obtain ⟨d, hd, hcurly⟩ := h
      rcases List.mem_cons.1 hd with rfl | hd
      · cases hcurly
      · exact ⟨d, hd, hcurly⟩
    have atRule := cutAtRule_append stop skipped (c := .leaf t) ds t
      (exists_isEnd_of_isCurly inRest) fun _ => inRest
    unfold cut
    dsimp only
    split
    case h_7 => exact atRule
    case h_8 => exact style
    all_goals rfl

end

/-! ## What a statement leaves -/

theorem rest_cutStyle_suffix (stop : Location) (skipped : Option Skipped) (c : Component)
    (cs : List Component) : (cutStyle stop skipped c cs).rest <:+ cs := by
  cases hc : c.isCurly with
  | true =>
    simp only [cutStyle, hc, Bool.true_or, if_true, fromCurly_of_isCurly hc,
      Skipped.ofLevel_snd_of_isCurly hc]
    exact List.suffix_rfl
  | false =>
    have inner : fromCurly (c :: cs) <:+ cs := by
      simp only [fromCurly, List.dropWhile_cons, hc, Bool.not_false, if_true]
      exact List.dropWhile_suffix _
    unfold cutStyle
    dsimp only
    split
    · exact (Skipped.ofLevel_suffix _).trans inner
    · exact (Body.ofLevel_suffix stop _).trans inner

theorem rest_cutAtRule_suffix (stop : Location) (skipped : Option Skipped) (keyword : Token)
    (c : Component) (cs : List Component) : (cutAtRule stop skipped keyword c cs).rest <:+ cs := by
  have body : (Body.ofLevel stop (fromEnd cs)).2 <:+ cs :=
    (Body.ofLevel_suffix stop _).trans (List.dropWhile_suffix _)
  rw [cutAtRule_eq]
  cases hform : AtRule.form? keyword cs with
  | none => exact rest_cutStyle_suffix stop skipped c cs
  | some form =>
    cases form with
    | group head => exact body
    | keyframes vendor =>
      dsimp only [cutForm, cutKeyframes]
      split
      · exact (Skipped.ofLevel_suffix _).trans (List.dropWhile_suffix _)
      · exact body
    | page => exact (Body.ofLevel_suffix stop _).trans (List.dropWhile_suffix _)
    | fontFace => exact body
    | whole rule rest =>
      obtain ⟨text, hstatement⟩ := AtRule.exists_statement?_of_form? hform
      exact AtRule.statement?_suffix hstatement

/-- A statement leaves a part of the level as it is. -/
theorem rest_cut_suffix (stop : Location) (skipped : Option Skipped) (c : Component)
    (cs : List Component) : (cut stop skipped c cs).rest <:+ cs := by
  unfold cut
  split
  · exact rest_cutStyle_suffix stop skipped _ cs
  · split
    case h_7 => exact rest_cutAtRule_suffix stop skipped _ _ cs
    case h_8 => exact rest_cutStyle_suffix stop skipped _ cs
    all_goals exact List.suffix_rfl

end Statement

/-! ## One level behind another -/

/-- The block that is still to be passed over when a level has been read. -/
def skippedBehind (stop : Location) (skipped : Option Skipped) : List Component → Option Skipped
  | [] => skipped
  | c :: cs => skippedBehind stop (Statement.cut stop skipped c cs).skipped
      (Statement.cut stop skipped c cs).rest
termination_by cs => tokenCount cs
decreasing_by
  have := Statement.tokenCount_cut stop skipped c cs
  omega

theorem skippedBehind_nil (stop : Location) (skipped : Option Skipped) :
    skippedBehind stop skipped [] = skipped := by
  rw [skippedBehind]

theorem skippedBehind_cons (stop : Location) (skipped : Option Skipped) (c : Component)
    (cs : List Component) : skippedBehind stop skipped (c :: cs) =
      skippedBehind stop (Statement.cut stop skipped c cs).skipped
        (Statement.cut stop skipped c cs).rest := by
  rw [skippedBehind]

/-- A level that ends in a block in curly brackets is read without a look at what stands behind
it. -/
theorem readRules_append (stop : Location) (skipped : Option Skipped) {cs : List Component}
    (h : ∀ c ∈ cs.getLast?, c.isCurly = true) (ds : List Component) :
    readRules stop skipped (cs ++ ds) = readRules stop skipped cs >>= fun rules =>
      (rules ++ ·) <$> readRules stop (skippedBehind stop skipped cs) ds := by
  fun_induction skippedBehind stop skipped cs with
  | case1 skipped => simp [readRules_nil]
  | case2 skipped c cs ih =>
    have hcurly : ∃ d ∈ c :: cs, d.isCurly = true :=
      ⟨(c :: cs).getLast (by simp), List.getLast_mem _, h _ (by simp [List.getLast?_eq_some_getLast])⟩
    have hrest : ∀ d ∈ (Statement.cut stop skipped c cs).rest.getLast?, d.isCurly = true := by
      intro d hd
      refine h d ?_
      obtain ⟨front, heq⟩ := (Statement.rest_cut_suffix stop skipped c cs).trans
        (List.suffix_cons c cs)
      rw [← heq, List.getLast?_append, Option.mem_def.1 hd]
      rfl
    rw [List.cons_append, readRules_cons, readRules_cons, Statement.cut_append stop skipped ds hcurly]
    dsimp only [Statement.Cut.append]
    rw [ih hrest]
    simp only [bind_assoc, map_bind, bind_map_left, Functor.map_map, List.append_assoc]

end Restyle.Css
