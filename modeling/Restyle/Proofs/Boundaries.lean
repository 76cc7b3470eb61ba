import Restyle.Proofs.Places
import Restyle.Proofs.StrictReading
import Restyle.Proofs.TokenEnds

/-!
# One text behind another

A text may end in a component that nothing behind it can go on with: a semicolon or a block that is
closed.  The components of a longer text are then those of the first and those of the rest
(`ofText_append`), because nesting leaves the levels it has finished alone (`Nesting.push_onTop`).

`Stylesheet.SplitsBetween` says that two texts are read one behind the other as each is read alone.
What a text leaves to be passed over is all that can stand in the way (`unplaced_read_append`).
-/

namespace Restyle.Css

/-- Only closing brackets close a block. -/
theorem Token.Kind.eq_closing_of_closes? {kind : Kind} {b : Bracket} (h : kind.closes? = some b) :
    kind = .closing b := by
  cases kind with
  | closing c => rw [Option.some.inj h]
  | _ => cases h

namespace Component

/-! ## Nesting on top of finished components -/

/-- Open blocks with finished components below them, last component first. -/
def Pending.onTop (base : List Component) : List Pending → List Pending
  | [] => []
  | [p] => [⟨p.opener, p.before ++ base⟩]
  | p :: q :: ps => p :: onTop base (q :: ps)

/-- A nesting with finished components below it, last component first. -/
def Nesting.onTop (base : List Component) (n : Nesting) : Nesting :=
  match n.pending with
  | [] => ⟨n.level ++ base, []⟩
  | p :: ps => ⟨n.level, Pending.onTop base (p :: ps)⟩

/-- Nesting goes on in the same way on top of finished components. -/
theorem Nesting.push_onTop (base : List Component) (n : Nesting) (t : Token) :
    (n.onTop base).push t = (n.push t).onTop base := by
  rcases n with ⟨level, _ | ⟨p, ps⟩⟩
  · unfold Nesting.push
    cases t.kind.opens? <;> rfl
  · unfold Nesting.push
    cases t.kind.opens? with
    | some b => rcases ps with _ | ⟨q, ps⟩ <;> rfl
    | none =>
      rcases ps with _ | ⟨q, ps⟩
      · dsimp only [onTop, Pending.onTop]
        split <;> rfl
      · dsimp only [onTop, Pending.onTop]
        split <;> rfl

theorem Nesting.foldl_push_onTop (base : List Component) (n : Nesting) (ts : List Token) :
    ts.foldl Nesting.push (n.onTop base) = (ts.foldl Nesting.push n).onTop base := by
  induction ts generalizing n with
  | nil => rfl
  | cons t ts ih => rw [List.foldl_cons, Nesting.push_onTop, ih, List.foldl_cons]

theorem Nesting.finish_onTop (base level : List Component) (ps : List Pending) :
    finish (onTop base ⟨level, ps⟩).level (onTop base ⟨level, ps⟩).pending =
      base.reverse ++ finish level ps := by
  induction ps generalizing level with
  | nil => simp [onTop, finish]
  | cons p ps ih =>
    rcases ps with _ | ⟨q, ps⟩
    · simp [onTop, Pending.onTop, finish]
    · exact ih (.block p.opener level.reverse none :: p.before)

/-- A nesting inside a block that is open, with more around it. -/
def Nesting.inside (p : Pending) (ps : List Pending) (n : Nesting) : Nesting :=
  ⟨n.level, n.pending ++ p :: ps⟩

/-- A token nests inside an open block as it nests alone, unless it closes that. -/
theorem Nesting.push_inside {b : Bracket} {p : Pending} (hp : p.opener.kind.opens? = some b)
    (ps : List Pending) {n : Nesting} {t : Token} (h : n.pending = [] → t.kind.closes? ≠ some b) :
    (n.inside p ps).push t = (n.push t).inside p ps := by
  rcases n with ⟨level, _ | ⟨q, qs⟩⟩
  · unfold Nesting.push
    cases hopens : t.kind.opens? with
    | some c => rfl
    | none =>
      have hstays : (t.kind.closes?.isSome && t.kind.closes? == p.opener.kind.opens?) = false := by
        rw [hp, Bool.and_eq_false_iff]
        exact .inr (beq_eq_false_iff_ne.2 (h rfl))
      dsimp only [inside, List.nil_append]
      rw [hstays]
      rfl
  · unfold Nesting.push
    cases t.kind.opens? with
    | some c => rfl
    | none =>
      dsimp only [inside, List.cons_append]
      split <;> rfl

/-- Whether no text behind a component can become a part of it. -/
def isClosed : Component → Bool
  | .leaf _ => true
  | .block _ _ closer => closer.isSome

/-- Blocks that are still open end in one that is not closed. -/
theorem Nesting.exists_finish_cons (level : List Component) (p : Pending) (ps : List Pending) :
    ∃ cs c, finish level (p :: ps) = cs ++ [c] ∧ c.isClosed = false := by
  induction ps generalizing level p with
  | nil =>
    exact ⟨p.before.reverse, .block p.opener level.reverse none, by simp [finish], rfl⟩
  | cons q ps ih => exact ih (.block p.opener level.reverse none :: p.before) q

/-- Behind a row of tokens that ends in a closed component, nesting starts afresh. -/
theorem ofTokens_append {ts : List Token} {cs : List Component} {c : Component}
    (h : ofTokens ts = cs ++ [c]) (hc : c.isClosed = true) (us : List Token) :
    ofTokens (ts ++ us) = ofTokens ts ++ ofTokens us := by
  unfold ofTokens at h ⊢
  rw [List.foldl_append]
  generalize ts.foldl Nesting.push {} = n at h ⊢
  rcases n with ⟨level, _ | ⟨p, ps⟩⟩
  · have start : (⟨level, []⟩ : Nesting) = Nesting.onTop level {} := rfl
    rw [start, Nesting.foldl_push_onTop]
    exact Nesting.finish_onTop level _ _
  -- a block that is still open would be the last component, which is closed
  · obtain ⟨ds, d, hfinish, hopen⟩ := Nesting.exists_finish_cons level p ps
    rw [show Nesting.finish level (p :: ps) = _ from h] at hfinish
    obtain ⟨-, hlast⟩ := List.append_inj' hfinish rfl
    obtain rfl := List.singleton_inj.1 hlast
    rw [hc] at hopen
    cases hopen

theorem mem_lex_of_mem_ofText {loc : Location} {text : List Char} {c : Component} {t : Token}
    (hc : c ∈ ofText loc text) (ht : t ∈ c.tokens) : t ∈ Token.lex loc text := by
  obtain ⟨front, back, hsplit⟩ := List.append_of_mem hc
  rw [← tokens_ofTokens (Token.lex loc text), show ofTokens (Token.lex loc text) = _ from hsplit]
  simp [ht]

/-- Behind a text that ends in a closed component whose last token is a stop, the components are those
of the rest. -/
theorem ofText_append {x : Char} (hx : Token.Stop x) {loc : Location} {r : List Char}
    {cs : List Component} {c : Component} {ts : List Token} {t : Token}
    (h : ofText loc r = cs ++ [c]) (hc : c.isClosed = true) (hlast : c.tokens = ts ++ [t])
    (ht : t.text = [x]) (s : List Char) :
    ofText loc (r ++ s) = ofText loc r ++ ofText t.stop s := by
  have hlex : Token.lex loc r = (tokensOf cs ++ ts) ++ [t] := by
    rw [← tokens_ofTokens (Token.lex loc r), show ofTokens (Token.lex loc r) = _ from h]
    simp [hlast]
  rw [ofText, Token.lex_append hx hlex ht, List.append_cons, ← hlex, ofTokens_append h hc]
  rfl

end Component

/-! ## Silent readers -/

namespace Reading

variable {α : Type}

/-- What a silent reader of a named text has to give, and what its problems say. -/
def Gives (m : Reading α) (source : Option String) (a : α) (messages : List String) : Prop :=
  ∃ notes, m ⟨source, true⟩ = (notes, .ok a) ∧
    (notes.filterMap Notice.problem?).map Problem.message = messages

/-- A silent reader that is in step gets to the end. -/
theorem InStep.exists_gives {m : Reading α} (h : InStep m) (source : Option String) :
    ∃ a messages, m.Gives source a messages := by
  obtain ⟨notes, a, silent, -⟩ := h source
  exact ⟨a, _, notes, silent, rfl⟩

theorem Gives.unique {m : Reading α} {source : Option String} {a a' : α}
    {messages messages' : List String} (h : m.Gives source a messages)
    (h' : m.Gives source a' messages') : a = a' ∧ messages = messages' := by
  obtain ⟨notes, hrun, rfl⟩ := h
  obtain ⟨notes', hrun', rfl⟩ := h'
  obtain ⟨rfl, hresult⟩ := Prod.mk.inj (hrun.symm.trans hrun')
  exact ⟨Except.ok.inj hresult, rfl⟩

theorem messages_unplaced (notes : List Notice) :
    ((notes.map Notice.unplaced).filterMap Notice.problem?).map Problem.message =
      (notes.filterMap Notice.problem?).map Problem.message := by
  induction notes with
  | nil => rfl
  | cons n notes ih =>
    cases n with
    | problem p => exact congrArg (p.message :: ·) ih
    | strayBracket line => exact ih

/-- Readers that are the same up to places give the same. -/
theorem Gives.congr {m m' : Reading α} (h : m.unplaced = m'.unplaced) {source : Option String} {a : α}
    {messages : List String} (hm : m.Gives source a messages) : m'.Gives source a messages := by
  obtain ⟨notes, hrun, rfl⟩ := hm
  have same := congrFun h ⟨source, true⟩
  rw [Reading.unplaced, Reading.unplaced, hrun] at same
  rcases hrun' : m' ⟨source, true⟩ with ⟨notes', result⟩
  rw [hrun'] at same
  obtain ⟨hnotes, hresult⟩ := Prod.mk.inj same
  cases result with
  | error p => cases hresult
  | ok a' =>
    obtain rfl := Except.ok.inj hresult
    refine ⟨notes', hrun', ?_⟩
    rw [← messages_unplaced notes, hnotes, messages_unplaced]

theorem Gives.bind {β : Type} {m : Reading α} {f : α → Reading β} {source : Option String} {a : α}
    {b : β} {messages messages' : List String} (h : m.Gives source a messages)
    (h' : (f a).Gives source b messages') : (m >>= f).Gives source b (messages ++ messages') := by
  obtain ⟨notes, hrun, rfl⟩ := h
  obtain ⟨notes', hrun', rfl⟩ := h'
  refine ⟨notes ++ notes', ?_, by simp⟩
  rw [bind_run, hrun]
  simp only [hrun']

theorem Gives.map {β : Type} (f : α → β) {m : Reading α} {source : Option String} {a : α}
    {messages : List String} (h : m.Gives source a messages) :
    (f <$> m).Gives source (f a) messages := by
  obtain ⟨notes, hrun, hmessages⟩ := h
  refine ⟨notes, ?_, hmessages⟩
  rw [map_run, hrun]
  rfl

end Reading

namespace Stylesheet

def messages (s : Stylesheet) : List String :=
  s.problems.map Problem.message

/-- Reads the rules of a text behind a block that is still to be passed over. -/
def readBehind (skipped : Option Skipped) (css : String) : Reading (List Rule) :=
  readRules (Location.start.advance css.toList) skipped (Component.ofText .start css.toList)

/-- The style sheet of a text behind a block that is still to be passed over. -/
def parseBehind (skipped : Option Skipped) (css : String) (options : ReadOptions) :
    Except Problem Stylesheet :=
  match readBehind skipped css options with
  | (_, .error problem) => .error problem
  | (notes, .ok rules) => .ok ⟨rules, notes.filterMap Notice.problem?⟩

theorem parseBehind_ok_iff {skipped : Option Skipped} {css : String} {source : Option String}
    {rules : List Rule} {messages : List String} :
    (readBehind skipped css).Gives source rules messages ↔
      ∃ s, parseBehind skipped css ⟨source, true⟩ = .ok s ∧ s.rules = rules ∧
        s.messages = messages := by
  unfold parseBehind
  constructor
  · rintro ⟨notes, hrun, rfl⟩
    rw [hrun]
    exact ⟨_, rfl, rfl, rfl⟩
  · rintro ⟨s, hs, rfl, rfl⟩
    rcases hrun : readBehind skipped css ⟨source, true⟩ with ⟨notes, p | rules⟩
    · rw [hrun] at hs
      cases hs
    · rw [hrun] at hs
      obtain rfl := Except.ok.inj hs
      exact ⟨notes, hrun, rfl⟩

/-- Silent readers make of two texts in a row what they make of the first and then of the second,
with a block in front of it that is still to be passed over. -/
def SplitsBehind (source : Option String) (r : String) (skipped : Option Skipped) (s : String) :
    Prop :=
  ∃ a b c, parse r ⟨source, true⟩ = .ok a ∧ parseBehind skipped s ⟨source, true⟩ = .ok b ∧
    parse (r ++ s) ⟨source, true⟩ = .ok c ∧ c.rules = a.rules ++ b.rules ∧
    c.messages = a.messages ++ b.messages

/-- Silent readers make of two texts in a row what they make of each: the rules of the first and
then those of the second, and the same for what the problems say. -/
def SplitsBetween (source : Option String) (r s : String) : Prop :=
  ∃ a b c, parse r ⟨source, true⟩ = .ok a ∧ parse s ⟨source, true⟩ = .ok b ∧
    parse (r ++ s) ⟨source, true⟩ = .ok c ∧ c.rules = a.rules ++ b.rules ∧
    c.messages = a.messages ++ b.messages

theorem splitsBetween_iff_splitsBehind_none {source : Option String} {r s : String} :
    SplitsBetween source r s ↔ SplitsBehind source r none s := Iff.rfl

/-- Texts that are read one behind the other up to places split. -/
theorem splitsBehind_of_unplaced {r s : String} {skipped : Option Skipped}
    (h : (read (r ++ s)).unplaced =
      (read r >>= fun rules => (rules ++ ·) <$> readBehind skipped s).unplaced)
    (source : Option String) : SplitsBehind source r skipped s := by
  obtain ⟨as, left, hleft⟩ :=
    (inStep_readRules _ _ _ : Reading.InStep (readBehind none r)).exists_gives source
  obtain ⟨bs, right, hright⟩ :=
    (inStep_readRules _ _ _ : Reading.InStep (readBehind skipped s)).exists_gives source
  have whole : (readBehind none (r ++ s)).Gives source (as ++ bs) (left ++ right) :=
    (hleft.bind (hright.map _)).congr h.symm
  obtain ⟨a, ha, rfl, rfl⟩ := parseBehind_ok_iff.1 hleft
  obtain ⟨b, hb, rfl, rfl⟩ := parseBehind_ok_iff.1 hright
  obtain ⟨c, hc, hrules, hmessages⟩ := parseBehind_ok_iff.1 whole
  exact ⟨a, b, c, ha, hb, hc, hrules, hmessages⟩

/-- A text is read in front of another in one way only. -/
theorem SplitsBehind.agree {source : Option String} {r s : String} {skipped skipped' : Option Skipped}
    (h : SplitsBehind source r skipped s) (h' : SplitsBehind source r skipped' s) :
    ∃ b b', parseBehind skipped s ⟨source, true⟩ = .ok b ∧
      parseBehind skipped' s ⟨source, true⟩ = .ok b' ∧ b.rules = b'.rules := by
  obtain ⟨a, b, c, ha, hb, hc, hrules, -⟩ := h
  obtain ⟨a', b', c', ha', hb', hc', hrules', -⟩ := h'
  obtain rfl := Except.ok.inj (ha.symm.trans ha')
  obtain rfl := Except.ok.inj (hc.symm.trans hc')
  exact ⟨b, b', hb, hb', List.append_cancel_left (hrules.symm.trans hrules')⟩

end Stylesheet

end Restyle.Css
