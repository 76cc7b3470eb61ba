import Mathlib.Data.List.Basic
import Restyle.Proofs.Alignment
import Restyle.Proofs.Comments
import Restyle.Proofs.Synchronisation

/-!
# Comments that nothing closes

A comment that is not closed is the last token of its text.  Only the readers of comments look for
that; wherever else such a comment stands, it is passed over, and what a strict reader stops at is a
bracket that is missing because the text is at an end.  A directive has no bracket that could be
missing: `@import`, `@charset`, `@namespace` and `@custom-media` may end with the text, and a comment
in front of that end is left out like any other.

A strict reader fails with a text just when it fails with one of the statements at its outermost level
(`Stylesheet.fails_iff`).  Behind an unclosed comment nothing is left to end a statement, so the last
of them is a directive or else one of them fails (`Statement.exists_fails`).
-/

namespace Restyle.Css

open Component

namespace Token

/-- A comment that runs to the end of its text. -/
def IsUnclosed (t : Token) : Prop :=
  t.kind = .comment ∧ endsComment t.text = false

/-- A comment reaches an end mark or takes all that is left. -/
theorem commentEnd_suffix_take_or (cs : List Char) :
    commentEnd <:+ cs.take (commentLength cs) ∨ cs.length ≤ commentLength cs := by
  fun_induction commentLength cs with
  | case1 => exact .inr (Nat.le_refl _)
  | case2 cs => exact .inl List.suffix_rfl
  | case3 c cs hopen ih =>
    rw [Nat.add_comm, List.take_succ_cons, List.length_cons]
    exact ih.imp (·.trans (List.suffix_cons c _)) Nat.succ_le_succ

/-- An unclosed comment is the last token of a text. -/
theorem getLast?_lex_of_isUnclosed {loc : Location} {cs : List Char} {t : Token}
    (h : t ∈ lex loc cs) (ht : t.IsUnclosed) : (lex loc cs).getLast? = some t := by
  revert h
  fun_induction lex loc cs with
  | case1 => exact fun h => absurd h List.not_mem_nil
  | case2 loc c cs kind n hscan text ih =>
    intro h
    rcases List.mem_cons.1 h with rfl | h
    · obtain ⟨hkind, hopen⟩ := ht
      obtain ⟨rest, rfl, rfl, hlength⟩ := commentShape_scan c cs (by rw [hscan]; exact hkind)
      have hn : n = 1 + commentLength rest := by rw [← hlength, hscan]
      have htext : text = '/' :: '*' :: rest.take (commentLength rest) := by
        change '/' :: ('*' :: rest).take n = _
        rw [hn, Nat.add_comm, List.take_succ_cons]
      have hall : rest.length ≤ commentLength rest := by
        refine (commentEnd_suffix_take_or rest).resolve_left fun hends => ?_
        have hlong := hends.length_le
        simp only [commentEnd, List.length_cons, List.length_nil] at hlong
        have hclosed : endsComment text = true := by
          rw [endsComment, Bool.and_eq_true, decide_eq_true_eq, List.isSuffixOf_iff_suffix, htext]
          refine ⟨?_, hends.trans (List.suffix_append ['/', '*'] _)⟩
          simp only [List.length_cons]
          omega
        rw [hclosed] at hopen
        cases hopen
      have hdrop : ('*' :: rest).drop n = [] := by
        refine List.drop_of_length_le ?_
        rw [List.length_cons, hn]
        omega
      rw [hdrop, lex]
      rfl
    · have hrest := ih h
      rw [List.getLast?_cons, hrest]
      rfl

end Token

/-! ## Readers that fail -/

namespace Reading

variable {α β : Type} {source : Option String}

/-- A strict reader that stops at a problem. -/
def Fails (m : Reading α) (source : Option String) : Prop :=
  ∃ p, (m ⟨source, false⟩).2 = .error p

theorem not_fails_pure (a : α) : ¬(pure a : Reading α).Fails source := by
  rintro ⟨p, h⟩
  cases h

theorem fails_report (cause : Problem.Cause) (place : Location) :
    (report cause place).Fails source :=
  ⟨_, rfl⟩

/-- Of two readers one after the other the second one fails if it is reached. -/
theorem fails_bind_iff {m : Reading α} {f : α → Reading β} : (m >>= f).Fails source ↔
    m.Fails source ∨ ∃ a, (m ⟨source, false⟩).2 = .ok a ∧ (f a).Fails source := by
  unfold Fails
  rw [bind_run]
  rcases m ⟨source, false⟩ with ⟨notes, p | a⟩
  · simp
  · simp

theorem Fails.bind {m : Reading α} (h : m.Fails source) (f : α → Reading β) :
    (m >>= f).Fails source :=
  fails_bind_iff.2 (.inl h)

/-- If the second of two readers fails whatever it is given, both together do. -/
theorem fails_bind_of_forall {m : Reading α} {f : α → Reading β} (h : ∀ a, (f a).Fails source) :
    (m >>= f).Fails source := by
  rw [fails_bind_iff]
  rcases hm : (m ⟨source, false⟩).2 with p | a
  · exact .inl ⟨p, hm⟩
  · exact .inr ⟨a, rfl, h a⟩

theorem fails_map_iff {m : Reading α} (f : α → β) : (f <$> m).Fails source ↔ m.Fails source := by
  unfold Fails
  rw [map_run]
  rcases m ⟨source, false⟩ with ⟨notes, p | a⟩ <;> simp [Except.map]

end Reading

open Reading

namespace Body

variable {α : Type} {source : Option String}

theorem fails_read_missing (construct : Construct) (place : Location) (inside : Reading α) :
    (read construct (.missing place) inside).Fails source :=
  (fails_report _ _).bind _

/-- A body without a closing bracket fails, if not inside then at its end. -/
theorem fails_read_open (construct : Construct) (contents : List Component) (stop : Location)
    (inside : Reading α) : (read construct (.block contents stop false) inside).Fails source := by
  rw [read_block]
  exact fails_bind_of_forall fun _ => (fails_report _ _).bind _

end Body

/-! ## The statements of a level -/

/-- The statements that a level is cut into, one after the other. -/
def statementsOf (stop : Location) (skipped : Option Skipped) : List Component → List Statement
  | [] => []
  | c :: cs => (Statement.cut stop skipped c cs).statement ::
      statementsOf stop (Statement.cut stop skipped c cs).skipped
        (Statement.cut stop skipped c cs).rest
termination_by cs => tokenCount cs
decreasing_by
  have := Statement.tokenCount_cut stop skipped c cs
  omega

theorem statementsOf_nil (stop : Location) (skipped : Option Skipped) :
    statementsOf stop skipped [] = [] := by
  rw [statementsOf]

theorem statementsOf_cons (stop : Location) (skipped : Option Skipped) (c : Component)
    (cs : List Component) : statementsOf stop skipped (c :: cs) =
      (Statement.cut stop skipped c cs).statement ::
        statementsOf stop (Statement.cut stop skipped c cs).skipped
          (Statement.cut stop skipped c cs).rest := by
  rw [statementsOf]

theorem statementsOf_ne_nil (stop : Location) (skipped : Option Skipped) {cs : List Component}
    (h : cs ≠ []) : statementsOf stop skipped cs ≠ [] := by
  cases cs with
  | nil => exact absurd rfl h
  | cons c cs =>
    rw [statementsOf_cons]
    exact List.cons_ne_nil _ _

/-- A level fails with its first statement that does. -/
theorem fails_readRules_iff (stop : Location) (skipped : Option Skipped) (cs : List Component)
    (source : Option String) : (readRules stop skipped cs).Fails source ↔
      ∃ s ∈ statementsOf stop skipped cs, s.read.Fails source := by
  fun_induction statementsOf stop skipped cs with
  | case1 skipped =>
    rw [readRules_nil]
    simp [not_fails_pure]
  | case2 skipped c cs ih =>
    rw [readRules_cons, fails_bind_iff, List.exists_mem_cons_iff]
    simp only [fails_map_iff, ih]
    constructor
    · rintro (h | ⟨rules, -, h⟩)
      · exact .inl h
      · exact .inr h
    · rintro (h | h)
      · exact .inl h
      · rcases hread : ((Statement.cut stop skipped c cs).statement.read ⟨source, false⟩).2 with p | a
        · exact .inl ⟨p, hread⟩
        · exact .inr ⟨a, rfl, h⟩

/-! ## The last statement -/

namespace Statement

variable {stop : Location} {skipped : Option Skipped} {c : Component} {cs : List Component}
  {source : Option String}

theorem IsRefusal.fails {s : Statement} (h : s.IsRefusal) : s.read.Fails source := by
  obtain ⟨cause, place, rfl, -⟩ := h
  exact (fails_report _ _).bind _

/-- A statement with a body is that body, read, and nothing else can fail in it. -/
theorem exists_read_of_body? {s : Statement} {construct : Construct} {body : Body}
    (h : s.body? = some (construct, body)) : ∃ (α : Type) (inside : Reading α)
      (f : Option α → List Rule), s.read = body.read construct inside >>= fun a => pure (f a) := by
  rcases s with ⟨head, body'⟩ | s
  · obtain ⟨rfl, rfl⟩ := Prod.mk.inj (Option.some.inj h)
    exact ⟨_, _, _, rfl⟩
  · cases s with
    | style | keyframes | fontFace | page =>
      obtain ⟨rfl, rfl⟩ := Prod.mk.inj (Option.some.inj h)
      exact ⟨_, _, _, rfl⟩
    | _ => cases h

/-- What is cut off like a style rule is refused or has a body. -/
theorem cutStyle_cases (stop : Location) (skipped : Option Skipped) (c : Component)
    (cs : List Component) : (cutStyle stop skipped c cs).statement.IsRefusal ∨
      ∃ construct body, (cutStyle stop skipped c cs).statement.body? = some (construct, body) := by
  unfold cutStyle
  dsimp only
  split
  · exact .inl ⟨_, _, rfl, .inl rfl⟩
  · exact .inr ⟨_, _, rfl⟩

/-- What is cut off a level: something that is refused or has a body, a directive, or one token. -/
theorem cut_cases (stop : Location) (skipped : Option Skipped) (c : Component)
    (cs : List Component) : (cut stop skipped c cs).statement.IsRefusal ∨
      (∃ construct body, (cut stop skipped c cs).statement.body? = some (construct, body)) ∨
      (∃ rule, (cut stop skipped c cs).statement = .flat (.whole rule)) ∨
      ∃ t, c = .leaf t ∧ (cut stop skipped c cs).rest = cs ∧ (t.kind = .comment →
        (cut stop skipped c cs).statement = .flat (.comment (Token.commentBody t.text)
          (Skipped.textOf skipped c) (Skipped.startOf skipped c))) := by
  have style := cutStyle_cases stop skipped c cs
  cases c with
  | block opener contents closer => exact style.imp_right .inl
  | leaf t =>
    have token : ∀ cut : Cut, cut.rest = cs → (t.kind = .comment →
        cut.statement = .flat (.comment (Token.commentBody t.text)
          (Skipped.textOf skipped (.leaf t)) (Skipped.startOf skipped (.leaf t)))) →
        ∃ u, Component.leaf t = .leaf u ∧ cut.rest = cs ∧ (u.kind = .comment →
          cut.statement = .flat (.comment (Token.commentBody u.text)
            (Skipped.textOf skipped (.leaf t)) (Skipped.startOf skipped (.leaf t)))) :=
      fun cut hrest hcomment => ⟨t, rfl, hrest, hcomment⟩
    unfold cut
    dsimp only
    split
    case h_5 => exact .inr (.inr (.inr (token _ rfl fun _ => rfl)))
    case h_7 =>
      rw [cutAtRule_eq]
      cases hform : AtRule.form? t cs with
      | none => exact style.imp_right .inl
      | some form =>
        cases form with
        | keyframes vendor =>
          dsimp only [cutForm, cutKeyframes]
          split
          · exact .inl ⟨_, _, rfl, .inr rfl⟩
          · exact .inr (.inl ⟨_, _, rfl⟩)
        | whole rule rest => exact .inr (.inr (.inl ⟨rule, rfl⟩))
        | group | page | fontFace => exact .inr (.inl ⟨_, _, rfl⟩)
    case h_8 => exact style.imp_right .inl
    all_goals
      next hkind =>
        refine .inr (.inr (.inr (token _ rfl fun hcomment => ?_)))
        rw [hcomment] at hkind
        cases hkind

/-- At the end of a level a body is missing or open, or else its closing bracket is the last token. -/
theorem fails_of_body {ts : List Token} {t : Token} {construct : Construct} {body : Body}
    (hbody : (cut stop skipped c cs).statement.body? = some (construct, body))
    (hrest : (cut stop skipped c cs).rest = []) (haligned : Aligned ts (c :: cs) [])
    (hlast : ts.getLast? = some t) (ht : t.IsUnclosed) :
    (cut stop skipped c cs).statement.read.Fails source := by
  obtain ⟨α, inside, f, hread⟩ := exists_read_of_body? hbody
  obtain ⟨hlevel, -⟩ := ofLevel_bodyLevel hbody
  rw [hread]
  refine Fails.bind ?_ _
  rcases Body.cases_ofLevel hlevel with
    ⟨place, rfl, -, -⟩ | ⟨opener, contents, closer, hblock, -, rfl⟩
  · exact Body.fails_read_missing _ _ _
  · obtain ⟨mid, ⟨front, hfront⟩, hmid⟩ := haligned.of_suffix (bodyLevel_suffix c cs)
    rw [hblock, hrest] at hmid
    cases hmid with
    | cut => exact Body.fails_read_open _ _ _ _
    | @closed _ closer b us behind _ _ _ hopens hcloser hinside hbehind =>
      -- the bracket would be the last token, which is a comment
      have hus : us = tokensOf contents ++ [closer] := by
        rw [hinside.eq_append, hbehind.eq_append]
        rfl
      rw [← hfront, hus, ← List.cons_append, ← List.append_assoc, List.getLast?_concat] at hlast
      obtain rfl := Option.some.inj hlast
      have hkind := Token.kind_of_closer_enclosed hcloser
      rw [ht.1] at hkind
      cases hkind

/-- A comment is not closed by what stands in front of it. -/
theorem fails_comment {t : Token} (ht : t.IsUnclosed) (body : List Char) (place : Location) :
    (Statement.flat (.comment body t.text place)).read.Fails source := by
  refine Fails.bind ?_ _
  unfold readComment
  rw [ht.2]
  exact (fails_report _ _).bind _

/-- The last statement of a text that ends in an unclosed comment fails, unless it is a directive. -/
theorem fails_of_last {ts : List Token} {t : Token} (hrest : (cut stop none c cs).rest = [])
    (haligned : Aligned ts (c :: cs) []) (hlast : ts.getLast? = some t) (ht : t.IsUnclosed)
    (hwhole : ∀ rule, (cut stop none c cs).statement ≠ .flat (.whole rule)) :
    (cut stop none c cs).statement.read.Fails source := by
  rcases cut_cases stop none c cs with h | ⟨construct, body, h⟩ | ⟨rule, h⟩ | ⟨u, rfl, h, hcomment⟩
  · exact h.fails
  · exact fails_of_body h hrest haligned hlast ht
  · exact absurd h (hwhole rule)
  · obtain rfl : cs = [] := h.symm.trans hrest
    have htokens : ts = [u] := haligned.eq_append
    rw [htokens] at hlast
    obtain rfl := Option.some.inj hlast
    have htext : Skipped.textOf none (.leaf u) = u.text := text_leaf u
    rw [hcomment ht.1, htext]
    exact fails_comment ht _ _

/-- Where a level ends in an unclosed comment, its last statement is a directive or one of its
statements fails. -/
theorem exists_fails {cs : List Component} {ts : List Token} {t : Token}
    (haligned : Aligned ts cs []) (hlast : ts.getLast? = some t) (ht : t.IsUnclosed)
    (hwhole : ∀ rule, (statementsOf stop none cs).getLast? ≠ some (.flat (.whole rule))) :
    ∃ s ∈ statementsOf stop none cs, s.read.Fails source := by
  generalize hskipped : (none : Option Skipped) = skipped at hwhole ⊢
  fun_induction statementsOf stop skipped cs generalizing ts with
  | case1 =>
    have hnil : ts = [] := haligned.eq_append
    rw [hnil] at hlast
    cases hlast
  | case2 skipped c cs ih =>
    subst hskipped
    rw [List.exists_mem_cons_iff]
    by_cases hrest : (cut stop none c cs).rest = []
    · rw [hrest, statementsOf_nil, List.getLast?_singleton] at hwhole
      refine .inl (fails_of_last hrest haligned hlast ht fun rule hrule => ?_)
      exact hwhole rule (congrArg some hrule)
    · cases hskipped : (cut stop none c cs).skipped with
      | some s => exact .inl ((leavesRefused_cut stop none c cs s hskipped).1.fails)
      | none =>
        rw [hskipped] at ih hwhole
        obtain ⟨mid, ⟨front, hfront⟩, hmid⟩ := haligned.of_suffix
          ((rest_cut_suffix stop none c cs).trans (List.suffix_cons c cs))
        have hne : mid ≠ [] := by
          rintro rfl
          have htokens := hmid.eq_append
          obtain ⟨d, ds, hds⟩ := List.exists_cons_of_ne_nil hrest
          have hpos := tokens_length_pos d
          have hlength := congrArg List.length htokens
          rw [hds] at hlength
          simp only [tokensOf_cons, List.append_nil, List.length_append, List.length_nil] at hlength
          omega
        refine .inr (ih hmid ?_ rfl ?_)
        · rw [← hlast, ← hfront, List.getLast?_append_of_ne_nil _ hne]
        · intro rule
          have hmore := hwhole rule
          rwa [List.getLast?_cons_of_ne_nil (statementsOf_ne_nil _ _ hrest)] at hmore

end Statement

/-! ## Style sheets -/

namespace Stylesheet

/-- The statements at the outermost level of a text. -/
def statements (css : String) : List Statement :=
  statementsOf (Location.start.advance css.toList) none (ofText .start css.toList)

/-- A strict reader fails with a text just when it fails with one of its statements. -/
theorem fails_iff (css : String) (source : Option String) :
    (∃ p, parse css ⟨source, false⟩ = .error p) ↔
      ∃ s ∈ statements css, s.read.Fails source := by
  refine Iff.trans ?_ (fails_readRules_iff _ none _ source)
  change _ ↔ (read css).Fails source
  unfold parse Fails
  rcases read css ⟨source, false⟩ with ⟨notes, p | rules⟩ <;> simp

/-- **An unclosed comment is refused unless a directive runs to the end of the text.**  A strict reader
fails with a text that ends in an unclosed comment, wherever the comment starts, but for one case: the
last statement of the text is an `@import`, `@charset`, `@namespace` or `@custom-media` that no
semicolon ends.  Such a statement is read as if the comment were not there, and the text fails only if
a statement in front of it does. -/
theorem unclosed_comment_fails_iff (css : String) (source : Option String) (t : Token)
    (hmem : t ∈ Token.lex .start css.toList) (hkind : t.kind = .comment)
    (hopen : Token.endsComment t.text = false) :
    (∃ p, parse css ⟨source, false⟩ = .error p) ↔
      (∀ rule, (statements css).getLast? ≠ some (.flat (.whole rule))) ∨
        ∃ s ∈ (statements css).dropLast, s.read.Fails source := by
  have ht : t.IsUnclosed := ⟨hkind, hopen⟩
  have hlast := Token.getLast?_lex_of_isUnclosed hmem ht
  rw [fails_iff]
  constructor
  · rintro ⟨s, hs, hfails⟩
    by_cases hwhole : ∀ rule, (statements css).getLast? ≠ some (.flat (.whole rule))
    · exact .inl hwhole
    · obtain ⟨rule, hrule⟩ := not_forall_not.1 hwhole
      obtain ⟨front, hfront⟩ := List.getLast?_eq_some_iff.1 hrule
      rw [hfront] at hs ⊢
      rw [List.dropLast_concat]
      rcases List.mem_append.1 hs with hs | hs
      · exact .inr ⟨s, hs, hfails⟩
      · obtain rfl := List.mem_singleton.1 hs
        exact absurd hfails (not_fails_pure _)
  · rintro (hwhole | ⟨s, hs, hfails⟩)
    · exact Statement.exists_fails (aligned_ofText _ _) hlast ht hwhole
    · exact ⟨s, List.dropLast_subset _ hs, hfails⟩

/-- A comment that a directive runs into at the end of the text, and one in an open block behind the
same directive. -/
theorem unclosed_comment_behind_import :
    (¬∃ p, parse "@import x/*" ⟨none, false⟩ = .error p) ∧
      ∃ p, parse "@import x;a\x7b/*" ⟨none, false⟩ = .error p := by
  have hdirective : statements "@import x/*" = [.flat (.whole (.directive .inclusion "x"))] := by
    decide +kernel
  have hblock : (statements "@import x;a\x7b/*").getLast? = some (.flat (.style ["a"]
      (.block [.leaf ⟨.comment, ['/', '*'], ⟨1, 13⟩⟩] ⟨1, 15⟩ false))) := by
    decide +kernel
  have passed := unclosed_comment_fails_iff "@import x/*" none ⟨.comment, ['/', '*'], ⟨1, 10⟩⟩
    (by decide +kernel) rfl rfl
  have refused := unclosed_comment_fails_iff "@import x;a\x7b/*" none
    ⟨.comment, ['/', '*'], ⟨1, 13⟩⟩ (by decide +kernel) rfl rfl
  constructor
  · rw [passed, hdirective]
    rintro (hlast | ⟨s, hs, -⟩)
    · exact hlast _ rfl
    · cases hs
  · rw [refused, hblock]
    refine .inl fun rule hrule => ?_
    cases hrule

end Stylesheet

end Restyle.Css
