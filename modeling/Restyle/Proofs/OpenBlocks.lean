import Restyle.Proofs.Alignment
import Restyle.Proofs.StrictReading

/-!
# Blocks that are left open

A reader enters the block of every statement and every frame that has one.  `Stylesheet.entered` lists
these blocks in the order in which they are entered, which is the order of their opening brackets in the
text, and says of each whether a bracket closes it.

A missing closing bracket is reported once the inside of the block has been read, so the open blocks are
reported from the innermost to the outermost.  Nothing is reported behind them: an open block runs to the
end of the text, so nothing stands behind it on its level (`Component.Aligned`), and the same holds of
the level around it, since a level with an open block on it cannot be the inside of a closed one.

`Reading.Enters` states this of a reader and the blocks that it enters, and `Covers` of the readers of
levels, together with where the blocks stand.  One lemma carries both across the body of a statement
(`Covers.read_body`).
-/

namespace Restyle.Css

open Component

/-! ## The blocks that a reader enters -/

/-- A block that a reader has entered: what it is the body of, and its brackets. -/
structure Entered where
  construct : Construct
  opener : Token
  closer : Option Token
  deriving Repr, DecidableEq

namespace Entered

def isOpen (e : Entered) : Bool := e.closer.isNone

/-- The block in curly brackets at the front of a level, if there is one, and the blocks that are
entered inside it. -/
def ofLevel (construct : Construct) (level : List Component) (inside : List Entered) : List Entered :=
  match level with
  | .block opener _ closer :: _ =>
    if opener.kind = .opening .curly then ⟨construct, opener, closer⟩ :: inside else []
  | _ => []

theorem ofLevel_of_curly {opener : Token} (h : opener.kind = .opening .curly) (construct : Construct)
    (contents : List Component) (closer : Option Token) (cs : List Component)
    (inside : List Entered) : ofLevel construct (.block opener contents closer :: cs) inside =
      ⟨construct, opener, closer⟩ :: inside := by
  rw [ofLevel, if_pos h]

theorem ofLevel_of_not_curly {level : List Component} (h : ∀ c ∈ level.head?, c.isCurly = false)
    (construct : Construct) (inside : List Entered) : ofLevel construct level inside = [] := by
  rcases level with _ | ⟨_ | ⟨opener, contents, closer⟩, cs⟩
  · rfl
  · rfl
  · rw [ofLevel, if_neg (beq_eq_false_iff_ne.1 (h _ rfl))]

/-- Blocks that stand one behind the other, or inside the other, in the tokens `ts`, all of them in
front of what is left in `us`.  A block has the closing bracket that matches its opening one among all
tokens behind that, or none if there is none. -/
inductive Along : List Token → List Entered → List Token → Prop
  | nil {ts us : List Token} (h : us <:+ ts) : Along ts [] us
  | cons {ts behind us : List Token} {e : Entered} {es : List Entered}
    (h : e.opener :: behind <:+ ts) (hopener : e.opener.kind = .opening .curly)
    (hcloser : e.closer = (Token.enclosed .curly [] behind).closer) (rest : Along behind es us) :
    Along ts (e :: es) us

end Entered

/-- The blocks that the frames of a level enter. -/
def enteredFrames (stop : Location) (skipped : Option Skipped) : List Component → List Entered
  | [] => []
  | c :: cs =>
    if c.isWhiteSpace || c.isSemicolon then enteredFrames stop none cs
    else if c.isComment then enteredFrames stop none cs
    else
      let moments := selectorsOf skipped (untilCurly (c :: cs))
      if _hc : c.isCurly || moments.all (· == "") then
        let next := Skipped.ofLevel (fromCurly (c :: cs))
        enteredFrames stop next.1 next.2
      else
        let next := Body.ofLevel stop (fromCurly (c :: cs))
        Entered.ofLevel .plain (fromCurly (c :: cs)) [] ++ enteredFrames stop none next.2
termination_by cs => tokenCount cs
decreasing_by
  · exact tokenCount_lt_cons c cs
  · exact tokenCount_lt_cons c cs
  · exact Skipped.tokenCount_ofLevel_fromCurly_lt c cs
  · simp only [Bool.or_eq_true, not_or, Bool.not_eq_true] at _hc
    have := tokenCount_fromCurly_lt _hc.1 cs
    have := Body.tokenCount_ofLevel stop (fromCurly (c :: cs))
    omega

/-- The blocks that a statement without statements inside enters, if it looks for its body on a given
level. -/
def Statement.Flat.entered (level : List Component) : Statement.Flat → List Entered
  | .style _ _ => Entered.ofLevel .plain level []
  | .keyframes _ _ body =>
    Entered.ofLevel .keyframes level (enteredFrames body.stop none body.contents)
  | .fontFace _ => Entered.ofLevel .fontFace level []
  | .page _ _ => Entered.ofLevel .page level []
  | _ => []

/-- The blocks that the rules of a level enter. -/
def enteredRules (stop : Location) (skipped : Option Skipped) : List Component → List Entered
  | [] => []
  | c :: cs =>
    match _h : Statement.cut stop skipped c cs with
    | ⟨.flat statement, next, rest⟩ =>
      statement.entered (Statement.bodyLevel c cs) ++ enteredRules stop next rest
    | ⟨.group head body, next, rest⟩ =>
      Entered.ofLevel head.construct (Statement.bodyLevel c cs)
        (enteredRules body.stop none body.contents) ++ enteredRules stop next rest
termination_by cs => tokenCount cs
decreasing_by
  all_goals
    have := Statement.tokenCount_cut stop skipped c cs
    rw [_h] at this
    simp only [Statement.contents] at this
    omega

/-- The blocks that a statement enters. -/
def Statement.entered (level : List Component) : Statement → List Entered
  | .group head body =>
    Entered.ofLevel head.construct level (enteredRules body.stop none body.contents)
  | .flat statement => statement.entered level

theorem enteredRules_nil (stop : Location) (skipped : Option Skipped) :
    enteredRules stop skipped [] = [] := by
  rw [enteredRules]

theorem enteredRules_cons (stop : Location) (skipped : Option Skipped) (c : Component)
    (cs : List Component) : enteredRules stop skipped (c :: cs) =
      (Statement.cut stop skipped c cs).statement.entered (Statement.bodyLevel c cs) ++
        enteredRules stop (Statement.cut stop skipped c cs).skipped
          (Statement.cut stop skipped c cs).rest := by
  rw [enteredRules]
  split
  · next h => rw [h]; rfl
  · next h => rw [h]; rfl

theorem enteredFrames_nil (stop : Location) (skipped : Option Skipped) :
    enteredFrames stop skipped [] = [] := by
  rw [enteredFrames]

namespace Entered

/-! ## Where they stand -/

variable {ts mid us vs : List Token} {es fs : List Entered}

namespace Along

theorem of_suffix (h : Along mid es us) (hmid : mid <:+ ts) : Along ts es us := by
  cases h with
  | nil h => exact .nil (h.trans hmid)
  | cons h hopener hcloser rest => exact .cons (h.trans hmid) hopener hcloser rest

theorem append (h : Along ts es mid) (h' : Along mid fs us) : Along ts (es ++ fs) us := by
  induction h with
  | nil h => exact h'.of_suffix h
  | cons h hopener hcloser _ ih => exact .cons h hopener hcloser (ih h')

theorem to_suffix (h : Along ts es us) (hvs : vs <:+ us) : Along ts es vs := by
  rw [← List.append_nil es]
  exact h.append (.nil hvs)

end Along

end Entered

/-! ## Readers that enter blocks -/

namespace Reading

variable {α β γ : Type} {place : Location} {es fs : List Entered}

/-- A silent reader that gets through and enters some blocks.  Of these it reports the open ones, from
the last that it has entered to the first, at a place behind all of them, and it does so when it has
reported everything else. -/
def Enters (place : Location) (m : Reading α) (es : List Entered) : Prop :=
  ∀ source, ∃ notes a others, m ⟨source, true⟩ = (notes, .ok a) ∧
    notes.filterMap Notice.problem? = others ++ (es.filter Entered.isOpen).reverse.map
      (fun e => ⟨.openBlock e.construct, place, source⟩) ∧
    ∀ p ∈ others, ∀ construct, p.cause ≠ .openBlock construct

theorem enters_pure (a : α) : (pure a : Reading α).Enters place [] :=
  fun _ => ⟨[], a, [], rfl, rfl, List.forall_mem_nil _⟩

theorem enters_note (line : Nat) : (note (.strayBracket line)).Enters place [] :=
  fun _ => ⟨[.strayBracket line], (), [], rfl, rfl, List.forall_mem_nil _⟩

theorem enters_report (cause : Problem.Cause) (h : ∀ construct, cause ≠ .openBlock construct)
    (loc : Location) : (report cause loc).Enters place [] := by
  intro source
  refine ⟨[.problem ⟨cause, loc, source⟩], (), [⟨cause, loc, source⟩], rfl, rfl, ?_⟩
  exact List.forall_mem_singleton.2 h

/-- Behind closed blocks a reader goes on. -/
theorem Enters.bind {m : Reading α} {f : α → Reading β} (hm : m.Enters place es)
    (hclosed : ∀ e ∈ es, e.isOpen = false) (hf : ∀ a, (f a).Enters place fs) :
    (m >>= f).Enters place (es ++ fs) := by
  intro source
  obtain ⟨notes, a, others, hrun, hnotes, hothers⟩ := hm source
  obtain ⟨notes', b, others', hrun', hnotes', hothers'⟩ := hf a source
  have hnone : es.filter Entered.isOpen = [] := by
    rw [List.filter_eq_nil_iff]
    intro e he
    rw [hclosed e he]
    exact Bool.false_ne_true
  refine ⟨notes ++ notes', b, others ++ others', ?_, ?_, List.forall_mem_append.2 ⟨hothers, hothers'⟩⟩
  · rw [bind_run, hrun]
    simp only [hrun']
  · rw [List.filterMap_append, hnotes, hnotes', List.filter_append, hnone, List.reverse_nil,
      List.map_nil, List.append_nil, List.nil_append, List.append_assoc]

theorem Enters.bind_pure {m : Reading α} (f : α → β) (hm : m.Enters place es) :
    (m >>= fun a => pure (f a)).Enters place es := by
  intro source
  obtain ⟨notes, a, others, hrun, hnotes, hothers⟩ := hm source
  refine ⟨notes, f a, others, ?_, hnotes, hothers⟩
  rw [bind_run, hrun]
  simp only [pure_run, List.append_nil]

theorem Enters.map {m : Reading α} (f : α → β) (hm : m.Enters place es) :
    (f <$> m).Enters place es := by
  rw [map_eq_pure_bind]
  exact hm.bind_pure f

/-- A reader that enters no block, and one behind it. -/
theorem Enters.bind_of_nil {m : Reading α} {f : α → Reading β} (hm : m.Enters place [])
    (hf : ∀ a, (f a).Enters place fs) : (m >>= f).Enters place fs :=
  hm.bind (List.forall_mem_nil _) hf

/-- A block is reported behind its inside if it is open. -/
theorem Enters.read_block {inside : Reading α} (h : inside.Enters place es) (construct : Construct)
    (contents : List Component) {stop : Location} (opener : Token) (closer : Option Token)
    (hstop : closer = none → stop = place) :
    (Body.read construct (.block contents stop closer.isSome) inside).Enters place
      (⟨construct, opener, closer⟩ :: es) := by
  intro source
  obtain ⟨notes, a, others, hrun, hnotes, hothers⟩ := h source
  rw [Body.read_block]
  cases closer with
  | some t =>
    refine ⟨notes, some a, others, ?_, hnotes, hothers⟩
    rw [bind_run, hrun]
    change (notes ++ [], _) = _
    rw [List.append_nil]
    rfl
  | none =>
    obtain rfl := hstop rfl
    refine ⟨notes ++ [.problem ⟨.openBlock construct, stop, source⟩], some a, others, ?_, ?_,
      hothers⟩
    · rw [bind_run, hrun]
      rfl
    · have hopen : (⟨construct, opener, none⟩ :: es).filter Entered.isOpen =
          ⟨construct, opener, none⟩ :: es.filter Entered.isOpen := rfl
      rw [List.filterMap_append, hnotes, hopen, List.reverse_cons, List.map_append,
        List.append_assoc]
      rfl

end Reading

open Reading

/-! ## Levels -/

/-- A reader of a level that ends at `stop`, and the blocks that it enters.  Where tokens are left
behind the level, all of these are closed. -/
def Covers {α : Type} (place : Location) (cs : List Component) (stop : Location) (m : Reading α)
    (es : List Entered) : Prop :=
  ∀ ts us, Aligned ts cs us → (us = [] → stop = place) →
    m.Enters place es ∧ Entered.Along ts es us ∧ (us ≠ [] → ∀ e ∈ es, e.isOpen = false)

section

variable {α β : Type} {place : Location}

theorem enters_readComment (body text : List Char) (loc : Location) :
    (readComment body text loc).Enters place [] := by
  unfold readComment
  split
  · exact enters_pure _
  · exact (enters_report .unclosedComment (fun _ => nofun) _).bind_pure _

theorem enters_readChunk (cs : List Component) : (readChunk cs).Enters place [] := by
  induction cs with
  | nil => exact enters_pure _
  | cons c cs ih =>
    unfold readChunk
    split
    · exact ih
    · split
      · exact (enters_readComment _ _ _).bind_of_nil fun _ => ih.map _
      · split
        · exact enters_pure _
        · exact (enters_report .noProperty (fun _ => nofun) _).bind_pure _

theorem enters_readChunks (chunks : List (List Component)) :
    (readChunks chunks).Enters place [] := by
  induction chunks with
  | nil => exact enters_pure _
  | cons chunk chunks ih => exact (enters_readChunk chunk).bind_of_nil fun _ => ih.map _

/-- Declarations enter no block. -/
theorem covers_readDeclarations (cs : List Component) (stop : Location) :
    Covers place cs stop (readDeclarations cs) [] :=
  fun _ _ haligned _ =>
    ⟨enters_readChunks _, .nil ⟨_, haligned.eq_append.symm⟩, fun _ => List.forall_mem_nil _⟩

/-- The body of a statement is read with what is inside, and the statement ends there.  Where its block
is open, nothing stands behind it. -/
theorem Covers.read_body {ts us : List Token} {level rest : List Component} {stop : Location}
    {body : Body} {inside : Reading α} {es : List Entered} (construct : Construct)
    (hinside : Covers place body.contents body.stop inside es) (haligned : Aligned ts level us)
    (hstop : us = [] → stop = place) (hbody : Body.ofLevel stop level = (body, rest)) :
    (body.read construct inside).Enters place (Entered.ofLevel construct level es) ∧
      ((∀ e ∈ Entered.ofLevel construct level es, e.isOpen = false) ∨ rest = [] ∧ us = []) ∧
      ∃ mid, Aligned mid rest us ∧ Entered.Along ts (Entered.ofLevel construct level es) mid := by
  rcases Body.cases_ofLevel hbody with
    ⟨loc, rfl, rfl, hfront⟩ | ⟨opener, contents, closer, rfl, hcurly, rfl⟩
  · rw [Entered.ofLevel_of_not_curly hfront]
    have hmissing : (Body.read construct (.missing loc) inside).Enters place [] :=
      (enters_report (.noBlock construct) (fun _ => nofun) _).bind_pure _
    exact ⟨hmissing, .inl (List.forall_mem_nil _), ts, haligned, .nil List.suffix_rfl⟩
  · rw [Entered.ofLevel_of_curly hcurly]
    have bracket : ∀ {b : Bracket}, opener.kind.opens? = some b → b = .curly := by
      intro b hb
      rw [hcurly] at hb
      exact (Option.some.inj hb).symm
    cases haligned with
    | @closed _ closer _ ts behind _ _ _ hopens hcloser inner hrest =>
      obtain rfl := bracket hopens
      obtain ⟨henters, halong, hclosed⟩ := hinside _ _ inner nofun
      refine ⟨?_, .inl ?_, behind, hrest, ?_⟩
      · exact henters.read_block construct _ opener (some closer) nofun
      · exact List.forall_mem_cons.2 ⟨rfl, hclosed (List.cons_ne_nil _ _)⟩
      · exact .cons List.suffix_rfl hcurly hcloser.symm (halong.to_suffix (List.suffix_cons _ _))
    | cut hopens hcloser inner =>
      obtain rfl := bracket hopens
      obtain ⟨henters, halong, -⟩ := hinside _ _ inner fun _ => hstop rfl
      refine ⟨?_, .inr ⟨rfl, rfl⟩, [], .nil [], ?_⟩
      · exact henters.read_block construct _ opener none fun _ => hstop rfl
      · exact .cons List.suffix_rfl hcurly hcloser.symm halong

/-- One statement or frame of a level, and the level behind it. -/
theorem Covers.behind {γ : Type} {ts mid us : List Token} {rest : List Component} {stop : Location}
    {here : Reading α} {more : Reading β} {es fs : List Entered} (f : α → β → γ)
    (hhere : here.Enters place es)
    (hlast : (∀ e ∈ es, e.isOpen = false) ∨ rest = [] ∧ us = [])
    (halong : Entered.Along ts es mid) (hmore : Covers place rest stop more fs)
    (hnil : rest = [] → fs = [] ∧ ∃ b, more = pure b) (hmid : Aligned mid rest us)
    (hstop : us = [] → stop = place) :
    (here >>= fun a => f a <$> more).Enters place (es ++ fs) ∧
      Entered.Along ts (es ++ fs) us ∧ (us ≠ [] → ∀ e ∈ es ++ fs, e.isOpen = false) := by
  obtain ⟨henters, hbehind, hclosed⟩ := hmore mid us hmid hstop
  refine ⟨?_, halong.append hbehind, fun hus => ?_⟩
  · rcases hlast with hes | ⟨hrest, -⟩
    · exact hhere.bind hes fun a => henters.map _
    · -- behind an open block there is nothing to read
      obtain ⟨rfl, b, rfl⟩ := hnil hrest
      rw [List.append_nil]
      simp only [map_pure]
      exact hhere.bind_pure _
  · rcases hlast with hes | ⟨-, hnone⟩
    · exact List.forall_mem_append.2 ⟨hes, hclosed hus⟩
    · exact absurd hnone hus

theorem covers_readFrames (stop : Location) (skipped : Option Skipped) (cs : List Component) :
    Covers place cs stop (readFrames stop skipped cs) (enteredFrames stop skipped cs) := by
  fun_induction readFrames stop skipped cs with
  | case1 =>
    intro ts us haligned hstop
    rw [enteredFrames_nil]
    exact ⟨enters_pure _, .nil ⟨_, haligned.eq_append.symm⟩, fun _ => List.forall_mem_nil _⟩
  | case2 skipped c cs hgap ih =>
    intro ts us haligned hstop
    rw [enteredFrames, if_pos hgap]
    obtain ⟨mid, hsuffix, hmid⟩ := haligned.of_suffix (List.suffix_cons c cs)
    obtain ⟨henters, halong, hclosed⟩ := ih mid us hmid hstop
    exact ⟨henters, halong.of_suffix hsuffix, hclosed⟩
  | case3 skipped c cs hgap hcomment ih =>
    intro ts us haligned hstop
    rw [enteredFrames, if_neg hgap, if_pos hcomment]
    obtain ⟨mid, hsuffix, hmid⟩ := haligned.of_suffix (List.suffix_cons c cs)
    obtain ⟨henters, halong, hclosed⟩ := ih mid us hmid hstop
    exact ⟨(enters_readComment _ _ _).bind_of_nil fun _ => henters.map _, halong.of_suffix hsuffix,
      hclosed⟩
  | case4 skipped c cs hgap hcomment moments hrefused ih =>
    intro ts us haligned hstop
    rw [enteredFrames, if_neg hgap, if_neg hcomment]
    dsimp only
    rw [dif_pos hrefused]
    obtain ⟨mid, hsuffix, hmid⟩ := haligned.of_suffix
      ((Skipped.ofLevel_suffix _).trans (List.dropWhile_suffix (!·.isCurly)))
    obtain ⟨henters, halong, hclosed⟩ := ih mid us hmid hstop
    have hcause : ∀ construct, Problem.Cause.noSelector ≠ .openBlock construct := by
      intro construct h
      cases h
    exact ⟨(enters_report .noSelector hcause _).bind_of_nil fun _ => henters,
      halong.of_suffix hsuffix, hclosed⟩
  | case5 skipped c cs hgap hcomment moments hrefused next ih =>
    intro ts us haligned hstop
    rw [enteredFrames, if_neg hgap, if_neg hcomment]
    dsimp only
    rw [dif_neg hrefused]
    obtain ⟨front, hsuffix, hfront⟩ := haligned.of_suffix (List.dropWhile_suffix (!·.isCurly))
    have hlevel : Body.ofLevel stop (fromCurly (c :: cs)) = (next.1, next.2) := rfl
    obtain ⟨hbody, hlast, mid, hmid, halong⟩ :=
      Covers.read_body .plain (covers_readDeclarations next.1.contents next.1.stop) hfront hstop hlevel
    refine Covers.behind _ (hbody.bind_pure _) hlast (halong.of_suffix hsuffix) ih (fun hrest => ?_)
      hmid hstop
    rw [hlevel, hrest, enteredFrames_nil, readFrames]
    exact ⟨rfl, _, rfl⟩

end

/-! ## Statements -/

namespace Statement

variable {place stop : Location} {skipped : Option Skipped} {c : Component} {cs : List Component}
  {ts us : List Token}

/-- What a statement reads, what it enters and what it leaves behind. -/
def Reaches (place : Location) (ts us : List Token) (read : Reading (List Rule)) (es : List Entered)
    (rest : List Component) : Prop :=
  read.Enters place es ∧ ((∀ e ∈ es, e.isOpen = false) ∨ rest = [] ∧ us = []) ∧
    ∃ mid, Aligned mid rest us ∧ Entered.Along ts es mid

/-- A statement with a body, of which the inside is covered. -/
theorem reaches_body {α : Type} {construct : Construct} {body : Body} {inside : Reading α}
    {es : List Entered} (f : Option α → List Rule)
    (hbody : (cut stop skipped c cs).statement.body? = some (construct, body))
    (hinside : Covers place body.contents body.stop inside es) (haligned : Aligned ts (c :: cs) us)
    (hstop : us = [] → stop = place) : Reaches place ts us
      (body.read construct inside >>= fun a => pure (f a))
      (Entered.ofLevel construct (bodyLevel c cs) es) (cut stop skipped c cs).rest := by
  obtain ⟨hlevel, -⟩ := ofLevel_bodyLevel hbody
  obtain ⟨front, hsuffix, hfront⟩ := haligned.of_suffix (bodyLevel_suffix c cs)
  obtain ⟨hread, hlast, mid, hmid, halong⟩ := hinside.read_body construct hfront hstop hlevel
  exact ⟨hread.bind_pure _, hlast, mid, hmid, halong.of_suffix hsuffix⟩

/-- A statement without a body enters no block. -/
theorem reaches_of_nil {read : Reading (List Rule)} (hread : read.Enters place [])
    (haligned : Aligned ts (c :: cs) us) :
    Reaches place ts us read [] (cut stop skipped c cs).rest := by
  obtain ⟨mid, hsuffix, hmid⟩ := haligned.of_suffix
    ((rest_cut_suffix stop skipped c cs).trans (List.suffix_cons c cs))
  exact ⟨hread, .inl (List.forall_mem_nil _), mid, hmid, .nil hsuffix⟩

/-- A statement that holds no other statements. -/
theorem Flat.reaches_read {statement : Flat}
    (h : (cut stop skipped c cs).statement = .flat statement) (haligned : Aligned ts (c :: cs) us)
    (hstop : us = [] → stop = place) : Reaches place ts us statement.read
      (statement.entered (bodyLevel c cs)) (cut stop skipped c cs).rest := by
  have body : ∀ {construct body}, (Statement.flat statement).body? = some (construct, body) →
      (cut stop skipped c cs).statement.body? = some (construct, body) := by
    intro construct body hbody
    rw [h, hbody]
  cases statement with
  | gap => exact reaches_of_nil (enters_pure _) haligned
  | comment _ _ _ => exact reaches_of_nil ((enters_readComment _ _ _).bind_pure _) haligned
  | strayBracket _ => exact reaches_of_nil ((enters_note _).bind_pure _) haligned
  | refused cause _ =>
    refine reaches_of_nil (Enters.bind_pure _ (enters_report cause ?_ _)) haligned
    rcases cause_of_cut h with rfl | rfl
    · exact fun _ => nofun
    · exact fun _ => nofun
  | style selectors _ =>
    exact reaches_body _ (body rfl) (covers_readDeclarations _ _) haligned hstop
  | keyframes name vendor _ =>
    exact reaches_body _ (body rfl) (covers_readFrames _ _ _) haligned hstop
  | fontFace _ => exact reaches_body _ (body rfl) (covers_readDeclarations _ _) haligned hstop
  | page selectors _ =>
    exact reaches_body _ (body rfl) (covers_readDeclarations _ _) haligned hstop
  | whole rule => exact reaches_of_nil (enters_pure _) haligned

end Statement

theorem covers_readRules {place : Location} (stop : Location) (skipped : Option Skipped)
    (cs : List Component) :
    Covers place cs stop (readRules stop skipped cs) (enteredRules stop skipped cs) := by
  fun_induction readRules stop skipped cs with
  | case1 =>
    intro ts us haligned hstop
    rw [enteredRules_nil]
    exact ⟨enters_pure _, .nil ⟨_, haligned.eq_append.symm⟩, fun _ => List.forall_mem_nil _⟩
  | case2 stop skipped c cs statement next rest hcut ih =>
    intro ts us haligned hstop
    have hstatement : (Statement.cut stop skipped c cs).statement = .flat statement := by rw [hcut]
    obtain ⟨hread, hlast, mid, hmid, halong⟩ :=
      Statement.Flat.reaches_read hstatement haligned hstop
    rw [enteredRules_cons]
    rw [hcut] at hlast hmid ⊢
    refine Covers.behind _ hread hlast halong ih (fun hrest : rest = [] => ?_) hmid hstop
    rw [hrest, enteredRules_nil, readRules_nil]
    exact ⟨rfl, _, rfl⟩
  | case3 stop skipped c cs head body next rest hcut ihInner ih =>
    intro ts us haligned hstop
    have hbody : (Statement.cut stop skipped c cs).statement.body? =
        some (head.construct, body) := by
      rw [hcut]
      rfl
    obtain ⟨hlevel, -⟩ := Statement.ofLevel_bodyLevel hbody
    obtain ⟨front, hsuffix, hfront⟩ := haligned.of_suffix (Statement.bodyLevel_suffix c cs)
    obtain ⟨hread, hlast, mid, hmid, halong⟩ :=
      ihInner.read_body head.construct hfront hstop hlevel
    rw [enteredRules_cons]
    rw [hcut] at hlast hmid ⊢
    refine Covers.behind _ hread hlast (halong.of_suffix hsuffix) ih
      (fun hrest : rest = [] => ?_) hmid hstop
    rw [hrest, enteredRules_nil, readRules_nil]
    exact ⟨rfl, _, rfl⟩

/-! ## Style sheets -/

/-- Only an open block is reported with this end of a message. -/
theorem Problem.Cause.message_ends_iff (cause : Problem.Cause) :
    "missing '\x7d'".toList <:+ cause.message.toList ↔
      ∃ construct, cause = .openBlock construct := by
  constructor
  · intro h
    cases cause with
    | openBlock construct => exact ⟨construct, rfl⟩
    | noBlock construct => exact absurd h (by cases construct <;> decide +kernel)
    | unclosedComment | noSelector | namelessKeyframes | noProperty | unbalanced =>
      exact absurd h (by decide +kernel)
  · rintro ⟨construct, rfl⟩
    rw [message, String.toList_append]
    exact List.suffix_append _ _

namespace Stylesheet

/-- The blocks that the reader of a text enters. -/
def entered (css : String) : List Entered :=
  enteredRules (Location.start.advance css.toList) none (ofText .start css.toList)

/-- The blocks of a text stand in it, and the open ones are what is reported last. -/
theorem enters_read (css : String) :
    (read css).Enters (Location.start.advance css.toList) (entered css) ∧
      Entered.Along (Token.lex .start css.toList) (entered css) [] := by
  obtain ⟨henters, halong, -⟩ := covers_readRules (Location.start.advance css.toList) none
    (ofText .start css.toList) _ _ (aligned_ofText _ _) fun _ => rfl
  exact ⟨henters, halong⟩

/-- Whether a problem says that a closing bracket is missing. -/
def saysOpen (p : Problem) : Bool :=
  "missing '\x7d'".toList.isSuffixOf p.message.toList

theorem saysOpen_iff (p : Problem) :
    saysOpen p = true ↔ ∃ construct, p.cause = .openBlock construct := by
  rw [saysOpen, List.isSuffixOf_iff_suffix]
  exact p.cause.message_ends_iff

/-- **Missing closing brackets are reported exactly.**  The blocks that the reader of a text enters
stand in it in the order in which they are entered, and each of them is closed by the bracket that
matches its opening one, if there is one in the text.  For each block without such a bracket, and for
nothing else, a silent reader reports that the bracket is missing: with the words for the construct
that the block is the body of, and at the end of the text.  The innermost of these blocks is reported
first, and no other problem is reported behind them. -/
theorem open_blocks_reported (css : String) (source : Option String) :
    ∃ sheet, parse css ⟨source, true⟩ = .ok sheet ∧
      Entered.Along (Token.lex .start css.toList) (entered css) [] ∧
      (sheet.problems.filter saysOpen).map (fun p => (p.message, p.location, p.source)) =
        ((entered css).filter Entered.isOpen).reverse.map (fun e =>
          (e.construct.label ++ "missing '\x7d'", Location.start.advance css.toList, source)) ∧
      sheet.problems.filter saysOpen <:+ sheet.problems := by
  obtain ⟨henters, halong⟩ := enters_read css
  obtain ⟨notes, rules, others, hrun, hnotes, hothers⟩ := henters source
  have hsilent : parse css ⟨source, true⟩ = .ok ⟨rules, notes.filterMap Notice.problem?⟩ := by
    rw [parse, hrun]
  refine ⟨_, hsilent, halong, ?_⟩
  have hnone : others.filter saysOpen = [] := by
    rw [List.filter_eq_nil_iff]
    intro p hp hsays
    obtain ⟨construct, hcause⟩ := (saysOpen_iff p).1 hsays
    exact hothers p hp construct hcause
  have hfilter : (notes.filterMap Notice.problem?).filter saysOpen =
      ((entered css).filter Entered.isOpen).reverse.map fun e =>
        ⟨.openBlock e.construct, Location.start.advance css.toList, source⟩ := by
    rw [hnotes, List.filter_append, hnone, List.nil_append, List.filter_eq_self]
    intro p hp
    obtain ⟨e, -, rfl⟩ := List.mem_map.1 hp
    exact (saysOpen_iff _).2 ⟨e.construct, rfl⟩
  dsimp only
  rw [hfilter]
  constructor
  · rw [List.map_map]
    exact List.map_congr_left fun e _ => rfl
  · rw [hnotes]
    exact List.suffix_append _ _

-- The closing bracket stands inside a round one that is open, and closes nothing.
example : (parse "a\x7b(\x7d" ⟨none, true⟩).toOption.map
    (·.problems.map fun p => (p.message, p.location.column)) =
      some [("property missing ':'", 3), ("missing '\x7d'", 5)] := by
  cbv

end Stylesheet

end Restyle.Css
