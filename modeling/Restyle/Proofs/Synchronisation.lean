import Restyle.Proofs.Boundaries

/-!
# Blocks as points of synchronisation

A text that ends in a closed block in curly brackets at its outermost level is read in the same way
whatever stands behind it, and so, but for one thing, is what stands behind it: a block that was
refused is only passed over with the next thing read.  `Stylesheet.refusedEnd` is that block, if the
text ends in one, and the texts split for every second text just where there is none.
-/

namespace Restyle.Css

open Component

/-! ## Blocks that are left to be passed over -/

/-- What is passed over is the inside of this block. -/
def Skipped.IsInside (s : Skipped) (c : Component) : Prop :=
  ∃ opener contents closer, c = .block opener contents closer ∧
    s.text = contents.flatMap Component.text ++ closer.toList.flatMap Token.text

/-- A block in curly brackets at the front of a level is what is refused there. -/
theorem Skipped.exists_isInside_of_ofLevel {cs : List Component} {s : Skipped}
    (h : (ofLevel cs).1 = some s) : ∃ c, cs = c :: (ofLevel cs).2 ∧ s.IsInside c := by
  rcases cs with _ | ⟨_ | ⟨opener, contents, closer⟩, cs⟩
  · cases h
  · cases h
  · by_cases hopener : opener.kind = .opening .curly
    · simp only [ofLevel, hopener, if_true, Option.some.injEq] at h
      subst h
      exact ⟨_, by simp [ofLevel, hopener], opener, contents, closer, rfl, rfl⟩
    · simp [ofLevel, hopener] at h

namespace Statement

/-- Whether a statement is a block that has been refused for want of a selector or of a name. -/
def IsRefusal (statement : Statement) : Prop :=
  ∃ cause place, statement = .flat (.refused cause place) ∧
    (cause = .noSelector ∨ cause = .namelessKeyframes)

/-- A block that is left to be passed over is what has been cut off last, and it has been refused. -/
def Cut.LeavesRefused (cut : Cut) (cs : List Component) : Prop :=
  ∀ s, cut.skipped = some s → cut.statement.IsRefusal ∧
    ∃ front c, cs = front ++ c :: cut.rest ∧ s.IsInside c

theorem leavesRefused_of_none {cut : Cut} (h : cut.skipped = none) (cs : List Component) :
    cut.LeavesRefused cs := by
  intro s hs
  rw [h] at hs
  cases hs

theorem leavesRefused_of_ofLevel {statement : Statement} {ds cs : List Component}
    (hstatement : statement.IsRefusal) (h : ds <:+ cs) :
    Cut.LeavesRefused ⟨statement, (Skipped.ofLevel ds).1, (Skipped.ofLevel ds).2⟩ cs := by
  intro s hs
  obtain ⟨c, hds, hinside⟩ := Skipped.exists_isInside_of_ofLevel hs
  obtain ⟨front, rfl⟩ := h
  exact ⟨hstatement, front, c, congrArg (front ++ ·) hds, hinside⟩

theorem leavesRefused_cutStyle (stop : Location) (skipped : Option Skipped) (c : Component)
    (cs : List Component) : (cutStyle stop skipped c cs).LeavesRefused (c :: cs) := by
  unfold cutStyle
  dsimp only
  split
  · exact leavesRefused_of_ofLevel ⟨_, _, rfl, .inl rfl⟩ (List.dropWhile_suffix _)
  · exact leavesRefused_of_none rfl _

theorem leavesRefused_cutAtRule (stop : Location) (skipped : Option Skipped) (keyword : Token)
    (c : Component) (cs : List Component) :
    (cutAtRule stop skipped keyword c cs).LeavesRefused (c :: cs) := by
  rw [cutAtRule_eq]
  cases AtRule.form? keyword cs with
  | none => exact leavesRefused_cutStyle stop skipped c cs
  | some form =>
    cases form with
    | keyframes vendor =>
      dsimp only [cutForm, cutKeyframes]
      split
      · exact leavesRefused_of_ofLevel ⟨_, _, rfl, .inr rfl⟩
          ((List.dropWhile_suffix _).trans (List.suffix_cons c cs))
      · exact leavesRefused_of_none rfl _
    | _ => exact leavesRefused_of_none rfl _

theorem leavesRefused_cut (stop : Location) (skipped : Option Skipped) (c : Component)
    (cs : List Component) : (cut stop skipped c cs).LeavesRefused (c :: cs) := by
  unfold cut
  split
  · exact leavesRefused_cutStyle stop skipped _ cs
  · split
    case h_7 => exact leavesRefused_cutAtRule stop skipped _ _ cs
    case h_8 => exact leavesRefused_cutStyle stop skipped _ cs
    all_goals exact leavesRefused_of_none rfl _

end Statement

theorem Statement.inStep_read (statement : Statement) : Reading.InStep statement.read := by
  cases statement with
  | flat statement => exact statement.inStep_read
  | group head body =>
    exact (body.inStep_read _ (inStep_readRules _ _ _)).bind fun _ => Reading.inStep_pure _

/-- Where a level leaves a block to be passed over, its last statement does, and what that statement
says is said last. -/
theorem exists_last_cut {stop : Location} {skipped : Option Skipped} {cs : List Component}
    {s : Skipped} (h : skippedBehind stop skipped cs = some s) (hcs : cs ≠ []) :
    ∃ front skipped' c cs', cs = front ++ c :: cs' ∧
      (Statement.cut stop skipped' c cs').skipped = some s ∧
      (Statement.cut stop skipped' c cs').rest = [] ∧
      ∀ source rules messages, (readRules stop skipped cs).Gives source rules messages →
        ∃ rules' left right, messages = left ++ right ∧
          (readRules stop skipped' (c :: cs')).Gives source rules' right := by
  fun_induction skippedBehind stop skipped cs with
  | case1 => exact absurd rfl hcs
  | case2 skipped c cs ih =>
    by_cases hrest : (Statement.cut stop skipped c cs).rest = []
    · rw [hrest, skippedBehind_nil] at h
      exact ⟨[], skipped, c, cs, rfl, h, hrest, fun _ rules messages hgives =>
        ⟨rules, [], messages, rfl, hgives⟩⟩
    · obtain ⟨front, skipped', d, ds, heq, hskipped, hlast, hsaid⟩ := ih h hrest
      obtain ⟨left, hleft⟩ := (Statement.rest_cut_suffix stop skipped c cs).trans
        (List.suffix_cons c cs)
      refine ⟨left ++ front, skipped', d, ds, ?_, hskipped, hlast, ?_⟩
      · rw [← hleft, heq, List.append_assoc]
      -- what the first statement says stands in front of all that the level behind it says
      · intro source rules messages hgives
        rw [readRules_cons] at hgives
        obtain ⟨here, said, hhere⟩ := (Statement.inStep_read _).exists_gives source
        obtain ⟨more, behind, hmore⟩ := (inStep_readRules _ _ _).exists_gives source
        obtain ⟨-, rfl⟩ := hgives.unique (hhere.bind (hmore.map _))
        obtain ⟨rules', front', right, rfl, hright⟩ := hsaid source more behind hmore
        exact ⟨rules', said ++ front', right, (List.append_assoc _ _ _).symm, hright⟩

namespace Stylesheet

/-- A text ends in a block in curly brackets that stands at its outermost level and is closed by the
last token. -/
def EndsInBlock (r : String) : Prop :=
  ∃ cs opener contents closer,
    ofText .start r.toList = cs ++ [.block opener contents (some closer)] ∧
      opener.kind = .opening .curly ∧ closer.kind = .closing .curly

/-- The block that is still to be passed over when a text has been read: the one the text ends in, if
that has been refused. -/
def refusedEnd (r : String) : Option Skipped :=
  skippedBehind (Location.start.advance r.toList) none (ofText .start r.toList)

/-- The last token of such a text is written as a bracket. -/
theorem EndsInBlock.text_closer {r : String} {cs contents : List Component} {opener closer : Token}
    (h : ofText .start r.toList = cs ++ [.block opener contents (some closer)])
    (hcloser : closer.kind = .closing .curly) : closer.text = ['\x7d'] := by
  have hmem : closer ∈ Token.lex .start r.toList := by
    refine mem_lex_of_mem_ofText (h ▸ List.mem_concat_self) ?_
    simp [tokens]
  exact Token.text_of_closingCurly hmem hcloser

/-- Behind a text that ends in a block a reader goes on as at the start of a text, but for the block
that it has refused. -/
theorem EndsInBlock.unplaced_read_append {r : String} (h : EndsInBlock r) (s : String) :
    (read (r ++ s)).unplaced =
      (read r >>= fun rules => (rules ++ ·) <$> readBehind (refusedEnd r) s).unplaced := by
  obtain ⟨cs, opener, contents, closer, htext, hopener, hcloser⟩ := h
  have hstop := EndsInBlock.text_closer htext hcloser
  have hlast : ∀ c ∈ (ofText .start r.toList).getLast?, c.isCurly = true := by
    intro c hc
    rw [htext, List.getLast?_concat, Option.mem_some_iff] at hc
    subst hc
    exact beq_iff_eq.2 hopener
  have happend := ofText_append Token.stop_closingCurly htext rfl (by rfl) hstop s.toList
  unfold read readBehind
  dsimp only
  rw [String.toList_append, happend, readRules_append _ _ hlast]
  refine Reading.unplaced_bind_congr (unplaced_readRules _ _ rfl rfl) fun rules => ?_
  refine Reading.unplaced_map_congr _ (unplaced_readRules _ _ ?_ (unplaced_ofText _ _ _))
  exact unplaced_skippedBehind _ _ rfl rfl

/-- What is passed over behind such a text has a bracket in it. -/
theorem EndsInBlock.mem_refusedEnd {r : String} (h : EndsInBlock r) {s : Skipped}
    (hs : refusedEnd r = some s) : '\x7d' ∈ s.text := by
  obtain ⟨cs, opener, contents, closer, htext, -, hcloser⟩ := h
  have hcs : ofText .start r.toList ≠ [] := by
    rw [htext]
    exact List.concat_ne_nil _ _
  obtain ⟨front, skipped, c, ds, hlevel, hskipped, hrest, -⟩ := exists_last_cut hs hcs
  obtain ⟨-, front', d, heq, opener', contents', closer', rfl, hinside⟩ :=
    Statement.leavesRefused_cut _ _ _ _ s hskipped
  rw [hrest] at heq
  rw [heq, ← List.append_assoc, htext] at hlevel
  obtain ⟨-, hlast⟩ := List.append_inj' hlevel rfl
  obtain ⟨rfl, rfl, rfl⟩ := Component.block.inj (List.singleton_inj.1 hlast)
  simp [hinside, EndsInBlock.text_closer htext hcloser]

/-- A text that leaves a block to be passed over has a complaint for its last. -/
theorem messages_of_refusedEnd {r : String} {s : Skipped} (hs : refusedEnd r = some s)
    {source : Option String} {a : Stylesheet} (ha : parse r ⟨source, true⟩ = .ok a) :
    a.messages.getLast? = some Problem.Cause.noSelector.message ∨
      a.messages.getLast? = some Problem.Cause.namelessKeyframes.message := by
  have hcs : ofText .start r.toList ≠ [] := by
    intro hnil
    rw [refusedEnd, hnil, skippedBehind_nil] at hs
    cases hs
  obtain ⟨front, skipped, c, ds, -, hskipped, hrest, hsaid⟩ := exists_last_cut hs hcs
  obtain ⟨⟨cause, place, hstatement, hcause⟩, -⟩ :=
    Statement.leavesRefused_cut _ _ _ _ s hskipped
  obtain ⟨rules, left, right, hmessages, hlast⟩ :=
    hsaid source a.rules a.messages (parseBehind_ok_iff.2 ⟨a, ha, rfl, rfl⟩)
  have hreport : (readRules (Location.start.advance r.toList) skipped (c :: ds)).Gives source []
      [cause.message] := by
    rw [readRules_cons, hrest, hstatement, readRules_nil]
    exact ⟨[.problem ⟨cause, place, source⟩], rfl, rfl⟩
  obtain ⟨-, rfl⟩ := hlast.unique hreport
  rw [hmessages, List.getLast?_concat]
  rcases hcause with rfl | rfl
  · exact .inl rfl
  · exact .inr rfl

/-- A rule without declarations, read behind a block that is still to be passed over, has the inside
of the block in its selector. -/
theorem readBehind_emptyRule (skipped : Option Skipped) :
    readBehind skipped "a\x7b\x7d" = pure [.style
      [String.ofList (Text.trim ((skipped.map Skipped.text).getD [] ++ ['a']))] []] := by
  have htext : ofText .start "a\x7b\x7d".toList = [.leaf ⟨.ident, ['a'], ⟨1, 1⟩⟩,
      .block ⟨.opening .curly, ['\x7b'], ⟨1, 2⟩⟩ [] (some ⟨.closing .curly, ['\x7d'], ⟨1, 3⟩⟩)] := by
    decide +kernel
  unfold readBehind
  have hselectors : ∀ t : Token, t.text = ['a'] → t.kind = .ident →
      selectorsOf skipped [.leaf t] =
        [String.ofList (Text.trim ((skipped.map Skipped.text).getD [] ++ ['a']))] := by
    intro t ht hkind
    cases skipped <;>
      simp [selectorsOf, splitOn, isComma, isLeaf, plainText, isComment, text, tokens, ht, hkind]
  have hnonempty : String.ofList (Text.trim ((skipped.map Skipped.text).getD [] ++ ['a'])) ≠ "" := by
    intro h
    have hmem := Text.mem_trim (c := 'a') (by decide)
      (List.mem_append_right ((skipped.map Skipped.text).getD []) (List.mem_singleton.2 rfl))
    rw [String.ofList_eq_empty_iff.1 h] at hmem
    cases hmem
  have hcut : Statement.cut (Location.start.advance "a\x7b\x7d".toList) skipped
      (.leaf ⟨.ident, ['a'], ⟨1, 1⟩⟩)
      [.block ⟨.opening .curly, ['\x7b'], ⟨1, 2⟩⟩ [] (some ⟨.closing .curly, ['\x7d'], ⟨1, 3⟩⟩)] =
      ⟨.flat (.style [String.ofList (Text.trim ((skipped.map Skipped.text).getD [] ++ ['a']))]
        (.block [] ⟨1, 3⟩ true)), none, []⟩ := by
    simp [Statement.cut, Statement.cutStyle, untilCurly, fromCurly, isCurly, isBlock, hselectors,
      hnonempty, Body.ofLevel]
  rw [htext, readRules_cons, hcut, readRules_nil]
  rfl

theorem EndsInBlock.splitsBehind {r : String} (h : EndsInBlock r) (source : Option String)
    (s : String) : SplitsBehind source r (refusedEnd r) s :=
  splitsBehind_of_unplaced (h.unplaced_read_append s) source

/-- Behind a refused block, an empty rule is not read as it is alone. -/
theorem EndsInBlock.not_splitsBetween {r : String} (h : EndsInBlock r) (source : Option String)
    {skipped : Skipped} (hr : refusedEnd r = some skipped) :
    ¬ SplitsBetween source r "a\x7b\x7d" := by
  intro hsplit
  obtain ⟨b, b', hb, hb', hrules⟩ := (h.splitsBehind source _).agree
    (splitsBetween_iff_splitsBehind_none.1 hsplit)
  simp only [parseBehind, readBehind_emptyRule, hr, Reading.pure_run, Except.ok.injEq] at hb hb'
  subst hb hb'
  have hselector : String.ofList (Text.trim (skipped.text ++ ['a'])) = "a" := by
    simpa [show Text.trim ['a'] = ['a'] by decide] using hrules
  have htrim : Text.trim (skipped.text ++ ['a']) = ['a'] := by
    simpa using congrArg String.toList hselector
  have hmem := Text.mem_trim (c := '\x7d') (by decide)
    (List.mem_append_left ['a'] (h.mem_refusedEnd hr))
  rw [htrim] at hmem
  simp at hmem

/-- **A closed block synchronises readers unless it is refused.**  Behind a text that ends in a closed
block at its outermost level, however malformed the rest of it is, a silent reader goes on as at the
start of a text, but for the block it may have refused last: the inside of that becomes the front of
what is read next.  So the text splits from every text behind it exactly when it does not end in a
refused block, and one that does has a missing selector or a missing name for its last complaint. -/
theorem splitsBetween_iff_of_endsInBlock {r : String} (h : EndsInBlock r) (source : Option String) :
    (∀ s, SplitsBehind source r (refusedEnd r) s) ∧
      ((∀ s, SplitsBetween source r s) ↔ refusedEnd r = none) ∧
      ∀ a, parse r ⟨source, true⟩ = .ok a → refusedEnd r ≠ none →
        a.messages.getLast? = some "selector missing" ∨
          a.messages.getLast? = some "@keyframes missing name" := by
  refine ⟨h.splitsBehind source, ⟨fun hsplit => ?_, fun hnone s => ?_⟩, fun a ha hsome => ?_⟩
  · cases hr : refusedEnd r with
    | none => rfl
    | some skipped => exact absurd (hsplit _) (h.not_splitsBetween source hr)
  · rw [splitsBetween_iff_splitsBehind_none, ← hnone]
    exact h.splitsBehind source s
  · obtain ⟨skipped, hr⟩ := Option.ne_none_iff_exists'.1 hsome
    exact messages_of_refusedEnd hr ha

/-- A block without a selector is refused, and a declaration without a colon spoils nothing behind
its block. -/
theorem splitsBetween_behind_two_blocks :
    (EndsInBlock "\x7ba\x7d" ∧
      (∀ s, SplitsBehind none "\x7ba\x7d" (some ⟨⟨1, 2⟩, ['a', '\x7d']⟩) s) ∧
      ¬ ∀ s, SplitsBetween none "\x7ba\x7d" s) ∧
    EndsInBlock "a\x7bb:c;d\x7d" ∧ ∀ s, SplitsBetween none "a\x7bb:c;d\x7d" s := by
  have refused : EndsInBlock "\x7ba\x7d" := by
    refine ⟨[], ⟨.opening .curly, ['\x7b'], ⟨1, 1⟩⟩, [.leaf ⟨.ident, ['a'], ⟨1, 2⟩⟩],
      ⟨.closing .curly, ['\x7d'], ⟨1, 3⟩⟩, ?_, rfl, rfl⟩
    decide +kernel
  have accepted : EndsInBlock "a\x7bb:c;d\x7d" := by
    refine ⟨[.leaf ⟨.ident, ['a'], ⟨1, 1⟩⟩], ⟨.opening .curly, ['\x7b'], ⟨1, 2⟩⟩,
      [.leaf ⟨.ident, ['b'], ⟨1, 3⟩⟩, .leaf ⟨.colon, [':'], ⟨1, 4⟩⟩,
        .leaf ⟨.ident, ['c'], ⟨1, 5⟩⟩, .leaf ⟨.semicolon, [';'], ⟨1, 6⟩⟩,
        .leaf ⟨.ident, ['d'], ⟨1, 7⟩⟩],
      ⟨.closing .curly, ['\x7d'], ⟨1, 8⟩⟩, ?_, rfl, rfl⟩
    decide +kernel
  have hrefused : refusedEnd "\x7ba\x7d" = some ⟨⟨1, 2⟩, ['a', '\x7d']⟩ := by decide +kernel
  have haccepted : refusedEnd "a\x7bb:c;d\x7d" = none := by decide +kernel
  have left := splitsBetween_iff_of_endsInBlock refused none
  have right := splitsBetween_iff_of_endsInBlock accepted none
  rw [hrefused] at left
  refine ⟨⟨refused, left.1, fun h => ?_⟩, accepted, right.2.1.2 haccepted⟩
  cases left.2.1.1 h

end Stylesheet

end Restyle.Css
