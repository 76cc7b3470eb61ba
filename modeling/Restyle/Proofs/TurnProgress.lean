import Restyle.Proofs.TurnReadings

/-!
# Getting through a text

A reader starts in front of a text and takes turn after turn, in a loop of its own for each block that it
enters.  In all the places that it gets to (`Place.Reached`), a turn may go back to where it started and
read from there again (`Place.rewinds`).  Still it ends behind where it started, and no further on than the
bracket that closes the block around it, or the end of the text.  A loop ends there and not before.

Each turn has a token of its own, so that a reader takes no more turns than the text has characters
(`turns_progress`).
-/

namespace Restyle.Css

open Component

/-! ## Places and how far they are on -/

/-- How many characters of a text stand in front of some tokens at its end. -/
def position (css : List Char) (ts : List Token) : Nat :=
  css.length - (ts.flatMap Token.text).length

/-- What stands from the end of a row on: the bracket that closes the block around it, and what is behind
that.  The row of a whole text ends with it. -/
def rowEnd (block : Option Cursor) : List Token :=
  block.elim [] fun c =>
    (Token.enclosed .curly [] c.rest).closer.toList ++ (Token.enclosed .curly [] c.rest).rest

section

variable {css : List Char} {ts us : List Token}

theorem suffix_text (h : ts <:+ Token.lex Location.start css) : ts.flatMap Token.text <:+ css := by
  obtain ⟨front, hfront⟩ := h
  refine ⟨front.flatMap Token.text, ?_⟩
  rw [← List.flatMap_append, hfront, Token.flatMap_text_lex]

/-- What stands from the position of some tokens on is their text. -/
theorem drop_position (h : ts <:+ Token.lex Location.start css) :
    css.drop (position css ts) = ts.flatMap Token.text :=
  (List.suffix_iff_eq_drop.1 (suffix_text h)).symm

theorem position_le (h : us <:+ ts) : position css ts ≤ position css us := by
  obtain ⟨front, rfl⟩ := h
  unfold position
  rw [List.flatMap_append, List.length_append]
  omega

/-- No token is empty, so that a reader with fewer tokens left is further on in the text. -/
theorem position_lt (hts : ts <:+ Token.lex Location.start css) (h : us <:+ ts)
    (hlength : us.length < ts.length) : position css ts < position css us := by
  have htext := (suffix_text hts).length_le
  obtain ⟨_ | ⟨t, front⟩, rfl⟩ := h
  · exact absurd hlength (Nat.lt_irrefl _)
  · have hne := (Token.isScanned_of_mem_lex (hts.mem List.mem_cons_self)).text_ne_nil
    have hpos := List.length_pos_iff.2 hne
    unfold position
    rw [List.cons_append, List.flatMap_cons, List.flatMap_append, List.length_append,
      List.length_append] at htext ⊢
    omega

theorem length_le_text (h : ts <:+ Token.lex Location.start css) :
    ts.length ≤ (ts.flatMap Token.text).length := by
  induction ts with
  | nil => exact Nat.le_refl _
  | cons t ts ih =>
    have hne := (Token.isScanned_of_mem_lex (h.mem List.mem_cons_self)).text_ne_nil
    have hpos := List.length_pos_iff.2 hne
    have hrest := ih ((List.suffix_cons t ts).trans h)
    rw [List.length_cons, List.flatMap_cons, List.length_append]
    omega

end

namespace Place

/-- In front of a text. -/
abbrev start (css : String) : Place :=
  ⟨.rules, ⟨Token.lex Location.start css.toList, none, none⟩⟩

/-- Where a text ends. -/
def last (css : String) : Location :=
  Location.start.advance css.toList

/-- The places that a reader of a text gets to, each with the start of the innermost block around it. -/
inductive Reached (css : String) : Option Cursor → Place → Prop where
  | start : Reached css none (start css)
  | behind {block : Option Cursor} {p : Place} {turn : Turn p.loop.Entry} (hp : Reached css block p)
    (h : p.turn? (last css) = some turn) : Reached css block ⟨p.loop, turn.behind⟩
  | inside {block : Option Cursor} {p q : Place} {turn : Turn p.loop.Entry} (hp : Reached css block p)
    (h : p.turn? (last css) = some turn) (hq : q ∈ turn.inside?) : Reached css (some q.cursor) q

end Place

/-! ## Going back -/

/-- Whether the statement of an at-rule, which would stand behind its keyword, does not have the form that
the keyword asks for. -/
def AtRule.isDeclined (keyword : Token) (behind : Cursor) : Bool :=
  match AtRule.ofKeyword? keyword.keyword with
  | none => true
  | some .customMedia => (behind.statement?.bind fun s => AtRule.customMedia? s.1).isNone
  | some (.directive _) => behind.statement?.isNone
  | some _ => false

/-- Whether a turn goes back to where it started when it has seen a token. -/
def Loop.rewinds (loop : Loop) (t : Token) (behind : Cursor) : Bool :=
  match t.kind with
  | .whiteSpace | .semicolon | .comment => false
  | .openMark | .closeMark | .closing .curly => loop != .rules
  | .atKeyword => loop != .rules || AtRule.isDeclined t behind
  | _ => true

namespace Turn

variable {ε : Type} {last : Location} {c d : Cursor} {t : Token}

theorem atRule_of_isDeclined (h : AtRule.isDeclined t d = true) :
    atRule last t c d = headed last Rule.style c := by
  unfold AtRule.isDeclined at h
  unfold atRule
  split at h
  · next hkeyword => rw [hkeyword]
  · next hkeyword =>
    rw [hkeyword]
    dsimp only
    have hnone : (d.statement?.bind fun s => (AtRule.customMedia? s.1).map fun rule => (rule, s.2)) =
        none := by
      cases hs : d.statement? with
      | none => rfl
      | some s =>
        rw [hs] at h
        simpa using h
    rw [hnone]
  · next directive hkeyword =>
    rw [hkeyword]
    dsimp only
    rw [Option.isNone_iff_eq_none.1 h]
  · cases h

theorem orBlank_of_rewinds {loop : Loop} {comment : String → ε} {other : Token → Cursor → Turn ε}
    (h : loop.rewinds t d = true) : orBlank last comment other c t d = other t d := by
  unfold Loop.rewinds at h
  unfold orBlank
  rw [if_neg, if_neg]
  · intro hkind
    rw [hkind] at h
    cases h
  · rintro (hkind | hkind) <;> rw [hkind] at h <;> cases h

theorem rule_of_rewinds (h : Loop.rules.rewinds t d = true) :
    rule last c t d = headed last Rule.style c := by
  unfold Loop.rewinds at h
  unfold rule
  cases hkind : t.kind with
  | openMark | closeMark =>
    rw [hkind] at h
    cases h
  | closing b =>
    cases b with
    | curly =>
      rw [hkind] at h
      cases h
    | _ => rfl
  | atKeyword =>
    rw [hkind] at h
    exact atRule_of_isDeclined h
  | _ => rfl

end Turn

/-- Such a turn reads from the place where it started. -/
theorem Place.turn?_of_rewinds {last : Location} {p : Place} {t : Token} {d : Cursor}
    (hnext : p.cursor.next? = some (t, d)) (h : p.loop.rewinds t d = true) :
    p.turn? last = some (p.loop.anew last p.cursor) := by
  obtain ⟨loop, c⟩ := p
  have hstep : ∀ {ε : Type} (turn : Token × Cursor → Turn ε), c.next?.map turn = some (turn (t, d)) :=
    fun turn => congrArg (Option.map turn) hnext
  cases loop with
  | rules => exact (hstep _).trans (congrArg some ((Turn.orBlank_of_rewinds h).trans
      (Turn.rule_of_rewinds h)))
  | frames => exact (hstep _).trans (congrArg some (Turn.orBlank_of_rewinds h))
  | declarations => exact (hstep _).trans (congrArg some (Turn.orBlank_of_rewinds h))

/-! ## Getting ahead in a text -/

/-- A turn ends further on, but no further than its row does.  If it runs a loop, that starts further on too,
and the turn ends behind the block which that is in. -/
structure Turn.Progress {ε : Type} (css : List Char) (block : Option Cursor) (c : Cursor)
    (turn : Turn ε) : Prop where
  further : position css c.rest < position css turn.behind.rest
  within : position css turn.behind.rest ≤ position css (rowEnd block)
  inside : ∀ q ∈ turn.inside?, position css c.rest < position css q.cursor.rest ∧
    turn.behind.rest = (Token.enclosed .curly [] q.cursor.rest).rest

namespace Place

variable {css : String} {block : Option Cursor} {p : Place}

/-- The row of a whole text ends with the text. -/
theorem rest_drain_start (css : String) : (start css).cursor.drain.rest = [] := by
  rcases Cursor.endOfRow_eq_nil_or none [] (Token.lex Location.start css.toList) with
    hnil | ⟨t, us, -, hbarrier⟩
  · exact hnil
  · unfold Token.isBarrier at hbarrier
    cases hcloses : t.kind.closes? <;> rw [hcloses] at hbarrier <;> cases hbarrier

/-- In front of a text stands what the reader of components reads. -/
theorem readLevel_start (css : String) : (start css).readLevel (last css) = Stylesheet.read css := by
  have hplace : (start css).cursor.drain.place (last css) = last css := by
    rw [Cursor.place, rest_drain_start]
    rfl
  rw [readLevel, hplace]
  exact congrArg (readRules (last css) none) (Cursor.level_start _)

/-- What the turns of a reader preserve: the reader is in the text, and its row is that of the block. -/
theorem Reached.fits (h : Reached css block p) :
    p.Fits css.toList ∧ p.cursor.drain.rest = rowEnd block := by
  induction h with
  | start => exact ⟨⟨List.suffix_rfl, nofun⟩, rest_drain_start css⟩
  | behind hp h ih =>
    refine ⟨ih.1.behind h, ?_⟩
    rw [← ih.2, ← (advances h).behind.drain]
  | inside hp h hq ih =>
    refine ⟨ih.1.inside h hq, ?_⟩
    obtain ⟨d, -, hopened, hinside, -⟩ := (advances h).inside _ hq
    rw [hinside]
    exact Cursor.rest_drain_nested hopened

theorem Reached.progress (hp : Reached css block p) {turn : Turn p.loop.Entry}
    (h : p.turn? (last css) = some turn) : turn.Progress css.toList block p.cursor := by
  obtain ⟨⟨hin, -⟩, hrow⟩ := hp.fits
  have hahead := (advances h).behind
  have hend : turn.behind.drain.rest <:+ turn.behind.rest :=
    turn.behind.drain_suffix.trans turn.behind.settle_suffix
  refine ⟨position_lt hin hahead.suffix hahead.shorter, ?_, fun q hq => ?_⟩
  · rw [← hrow, ← hahead.drain]
    exact position_le hend
  · obtain ⟨d, hd, hopened, hinside, hbehind⟩ := (advances h).inside q hq
    rw [hinside, hbehind]
    exact ⟨position_lt hin hd.suffix hd.shorter, Cursor.rest_skipContents hopened⟩

/-- A loop ends at the end of its row. -/
theorem turn?_eq_none_iff_drain {last : Location} :
    p.turn? last = none ↔ p.cursor.settle.rest = p.cursor.drain.rest := by
  rw [turn?_eq_none_iff]
  constructor
  · intro h
    rw [Cursor.drain_of_next?_eq_none h]
  · intro h
    cases hnext : p.cursor.next? with
    | none => rfl
    | some step =>
      obtain ⟨t, d⟩ := step
      have hrest := (Cursor.next?_eq_some_iff.1 hnext).1
      have hend : d.drain.rest.length ≤ d.rest.length :=
        (d.drain_suffix.trans d.settle_suffix).length_le
      rw [hrest, Cursor.drain_of_next? hnext] at h
      rw [← h, List.length_cons] at hend
      exact absurd hend (Nat.not_succ_le_self _)

/-- A style sheet is read turn by turn, in no more turns than the text has characters.  Wherever a reader
gets to, it reads what the readers of components read there.  Its loop ends only at the end of the row, which
is the closing bracket of the block around or else the end of the text.  A turn that goes back reads from
where it started.  Still every turn ends behind where it started, and not behind the end of the row. -/
theorem turns_progress (css : String) :
    Stylesheet.read css = (start css).read (last css) ∧
    (start css).turns (last css) ≤ css.toList.length ∧
    ∀ block p, Reached css block p →
      css.toList.drop (position css.toList p.cursor.rest) = p.cursor.rest.flatMap Token.text ∧
      p.read (last css) = p.readLevel (last css) ∧
      (p.turn? (last css) = none ↔ p.cursor.settle.rest = rowEnd block) ∧
      (∀ t d, p.cursor.next? = some (t, d) → p.loop.rewinds t d = true →
        p.turn? (last css) = some (p.loop.anew (last css) p.cursor)) ∧
      ∀ turn, p.turn? (last css) = some turn → turn.Progress css.toList block p.cursor := by
  refine ⟨?_, ?_, fun block p hp =>
    ⟨drop_position hp.fits.1.isIn, ?_, ?_, fun t d => turn?_of_rewinds, fun turn => hp.progress⟩⟩
  · exact (readLevel_start css).symm.trans (Reached.start.fits.1.read_eq rfl).symm
  · have hturns := turns_le (last css) (start css)
    have htokens := length_le_text (List.suffix_rfl (l := Token.lex Location.start css.toList))
    rw [Token.flatMap_text_lex] at htokens
    exact Nat.le_trans (Nat.le_of_add_right_le hturns) htokens
  · exact hp.fits.1.read_eq rfl
  · rw [turn?_eq_none_iff_drain, hp.fits.2]

-- Nothing stands in front of the block, and the turn gets ahead by its bracket alone.
example : ((start "{a}").turn? (last "{a}")).map (fun turn => position "{a}".toList turn.behind.rest) =
    some 1 := by
  cbv

end Place

end Restyle.Css
