import Restyle.Css.Cursor
import Restyle.Proofs.Boundaries

/-!
# What a block encloses

An open block takes the tokens up to the bracket that closes it (`Token.enclosed`), and these nest inside
it as they would alone (`Component.ofTokens_opening`).  So components can be read off the front of a row
of tokens one after the other, and what a block of a text holds is what its own tokens nest to
(`Component.Within.eq_ofTokens`).
-/

namespace Restyle.Css

namespace Token

/-- The brackets that are open behind a token, innermost first, given those that are open in front of
it.  A closing bracket that does not match the innermost one closes nothing. -/
def nest (t : Token) (bs : List Bracket) : List Bracket :=
  match t.kind.opens? with
  | some b => b :: bs
  | none =>
    match bs with
    | [] => []
    | b :: bs => if t.kind.closes? = some b then bs else b :: bs

/-- How an open block divides the tokens behind its opening bracket. -/
structure Enclosed where
  inside : List Token
  /-- The bracket that closes the block. -/
  closer : Option Token
  rest : List Token

/-- Divides the tokens behind the opening bracket of a block, of which those in front have left the
brackets `bs` open. -/
def enclosed (b : Bracket) (bs : List Bracket) : List Token → Enclosed
  | [] => ⟨[], none, []⟩
  | t :: ts =>
    if bs = [] ∧ t.kind.closes? = some b then ⟨[], some t, ts⟩
    else
      let e := enclosed b (t.nest bs) ts
      ⟨t :: e.inside, e.closer, e.rest⟩

variable {b : Bracket} {bs : List Bracket} {t : Token} {ts : List Token}

theorem enclosed_closer (h : t.kind.closes? = some b) :
    enclosed b [] (t :: ts) = ⟨[], some t, ts⟩ := by
  rw [enclosed, if_pos ⟨rfl, h⟩]

theorem enclosed_cons (h : ¬(bs = [] ∧ t.kind.closes? = some b)) : enclosed b bs (t :: ts) =
    ⟨t :: (enclosed b (t.nest bs) ts).inside, (enclosed b (t.nest bs) ts).closer,
      (enclosed b (t.nest bs) ts).rest⟩ := by
  rw [enclosed, if_neg h]

/-- Nothing is lost. -/
theorem enclosed_append (b : Bracket) (bs : List Bracket) (ts : List Token) :
    (enclosed b bs ts).inside ++ (enclosed b bs ts).closer.toList ++ (enclosed b bs ts).rest = ts := by
  induction ts generalizing bs with
  | nil => rfl
  | cons t ts ih =>
    by_cases h : bs = [] ∧ t.kind.closes? = some b
    · obtain ⟨rfl, hcloses⟩ := h
      rw [enclosed_closer hcloses]
      rfl
    · rw [enclosed_cons h]
      exact congrArg (t :: ·) (ih (t.nest bs))

/-- A block that nothing closes runs to the end. -/
theorem rest_enclosed_of_closer (h : (enclosed b bs ts).closer = none) : (enclosed b bs ts).rest = [] := by
  induction ts generalizing bs with
  | nil => rfl
  | cons t ts ih =>
    by_cases hcloser : bs = [] ∧ t.kind.closes? = some b
    · rw [enclosed, if_pos hcloser] at h
      cases h
    · rw [enclosed_cons hcloser] at h ⊢
      exact ih h

theorem length_inside_enclosed (b : Bracket) (bs : List Bracket) (ts : List Token) :
    (enclosed b bs ts).inside.length ≤ ts.length := by
  have hlength := congrArg List.length (enclosed_append b bs ts)
  rw [List.length_append, List.length_append] at hlength
  omega

theorem length_rest_enclosed (b : Bracket) (bs : List Bracket) (ts : List Token) :
    (enclosed b bs ts).rest.length ≤ ts.length := by
  have hlength := congrArg List.length (enclosed_append b bs ts)
  rw [List.length_append] at hlength
  omega

theorem nest_of_opens {c : Bracket} (h : t.kind.opens? = some c) (bs : List Bracket) :
    t.nest bs = c :: bs := by
  unfold nest
  rw [h]

/-- A token that neither opens a block nor closes the innermost one leaves the same blocks open. -/
theorem nest_of_stays (hopens : t.kind.opens? = none) (h : ∀ c ∈ bs.head?, t.kind.closes? ≠ some c) :
    t.nest bs = bs := by
  unfold nest
  rw [hopens]
  cases bs with
  | nil => rfl
  | cons c cs => exact if_neg (h c rfl)

theorem nest_nil (hopens : t.kind.opens? = none) : t.nest [] = [] :=
  nest_of_stays hopens fun c hc => by cases hc

/-- A kind that opens a block is none that opens nothing. -/
theorem Kind.ne_of_opens? {kind kind' : Kind} {c : Bracket} (h : kind.opens? = some c)
    (h' : kind'.opens? = none) : kind ≠ kind' := by
  rintro rfl
  rw [h] at h'
  cases h'

theorem opens?_of_closes? {c : Bracket} (h : t.kind.closes? = some c) : t.kind.opens? = none := by
  rw [Kind.eq_closing_of_closes? h]
  rfl

theorem nest_of_closes {c : Bracket} (h : t.kind.closes? = some c) (bs : List Bracket) :
    t.nest (c :: bs) = bs := by
  unfold nest
  rw [opens?_of_closes? h]
  exact if_pos h

/-- A token does to the open brackets what it does without the outermost one, unless it closes that. -/
theorem nest_concat (h : ¬(bs = [] ∧ t.kind.closes? = some b)) :
    t.nest (bs ++ [b]) = t.nest bs ++ [b] := by
  cases hopens : t.kind.opens? with
  | some c => rw [nest_of_opens hopens, nest_of_opens hopens, List.cons_append]
  | none =>
    cases bs with
    | nil =>
      rw [nest_nil hopens, List.nil_append]
      refine nest_of_stays hopens fun c hc hcloses => h ⟨rfl, ?_⟩
      rw [hcloses, ← Option.some.inj hc]
    | cons c cs =>
      rw [List.cons_append]
      by_cases hcloses : t.kind.closes? = some c
      · rw [nest_of_closes hcloses, nest_of_closes hcloses]
      · have hstays : ∀ d ∈ (c :: cs).head?, t.kind.closes? ≠ some d := by
          intro d hd
          rwa [← Option.some.inj hd]
        rw [nest_of_stays hopens hstays, nest_of_stays hopens]
        · rfl
        · intro d hd
          rwa [← Option.some.inj hd]

/-- A block inside another ends first, and what stands behind it is still inside the other. -/
theorem enclosed_concat (b c : Bracket) (bs : List Bracket) (ts : List Token) :
    enclosed b (bs ++ [c]) ts =
      ⟨(enclosed c bs ts).inside ++ (enclosed c bs ts).closer.toList ++
          (enclosed b [] (enclosed c bs ts).rest).inside,
        (enclosed b [] (enclosed c bs ts).rest).closer,
        (enclosed b [] (enclosed c bs ts).rest).rest⟩ := by
  induction ts generalizing bs with
  | nil => rfl
  | cons t ts ih =>
    have houter : ¬(bs ++ [c] = [] ∧ t.kind.closes? = some b) :=
      fun h => List.concat_ne_nil c bs h.1
    rw [enclosed_cons houter]
    by_cases hcloser : bs = [] ∧ t.kind.closes? = some c
    · obtain ⟨rfl, hcloses⟩ := hcloser
      rw [enclosed_closer hcloses, List.nil_append, nest_of_closes hcloses]
      rfl
    · rw [nest_concat hcloser, ih, enclosed_cons hcloser]
      rfl

/-- What a block encloses does not depend on what stands behind the block. -/
theorem enclosed_inside_append {us : List Token} (h : (enclosed b bs ts).closer = none → us = []) :
    enclosed b bs ((enclosed b bs ts).inside ++ (enclosed b bs ts).closer.toList ++ us) =
      ⟨(enclosed b bs ts).inside, (enclosed b bs ts).closer, us⟩ := by
  induction ts generalizing bs with
  | nil =>
    rw [h rfl]
    rfl
  | cons t ts ih =>
    by_cases hcloser : bs = [] ∧ t.kind.closes? = some b
    · obtain ⟨rfl, hcloses⟩ := hcloser
      rw [enclosed_closer hcloses]
      exact enclosed_closer hcloses
    · rw [enclosed_cons hcloser] at h ⊢
      dsimp only [List.cons_append]
      rw [enclosed_cons hcloser, ih h]

/-- Passing over a block leads behind what it encloses. -/
theorem passOver_eq_rest (b : Bracket) (bs : List Bracket) (ts : List Token) :
    passOver (bs ++ [b]) ts = (enclosed b bs ts).rest := by
  induction ts generalizing bs with
  | nil => cases bs <;> rfl
  | cons t ts ih =>
    cases bs with
    | nil =>
      rw [List.nil_append, passOver]
      by_cases hcloses : t.kind.closes? = some b
      · rw [if_pos hcloses, enclosed_closer hcloses, passOver_nil]
      · rw [if_neg hcloses, enclosed_cons fun h => hcloses h.2]
        dsimp only
        rw [← ih]
        cases hopens : t.kind.opens? with
        | some inner => rw [nest_of_opens hopens]; rfl
        | none => rw [nest_nil hopens]; rfl
    | cons c cs =>
      have hcons : ¬(c :: cs = [] ∧ t.kind.closes? = some b) := fun h => List.cons_ne_nil _ _ h.1
      rw [List.cons_append, passOver, enclosed_cons hcons]
      dsimp only
      rw [← ih]
      by_cases hcloses : t.kind.closes? = some c
      · rw [if_pos hcloses, nest_of_closes hcloses]
      · rw [if_neg hcloses]
        cases hopens : t.kind.opens? with
        | some inner => rw [nest_of_opens hopens]; rfl
        | none =>
          rw [nest_of_stays hopens]
          · rfl
          · intro d hd
            obtain rfl := Option.some.inj hd
            exact hcloses

end Token

namespace Component

/-! ## Nesting inside a block -/

/-- The brackets of the blocks that are open in a nesting, innermost first. -/
def Nesting.Opens (n : Nesting) (bs : List Bracket) : Prop :=
  n.pending.map (·.opener.kind.opens?) = bs.map some

theorem Nesting.Opens.push {n : Nesting} {bs : List Bracket} (h : n.Opens bs) (t : Token) :
    (n.push t).Opens (t.nest bs) := by
  unfold Nesting.push
  cases hopens : t.kind.opens? with
  | some b =>
    rw [Token.nest_of_opens hopens]
    exact congrArg₂ List.cons hopens h
  | none =>
    rcases n with ⟨level, _ | ⟨p, ps⟩⟩
    · obtain rfl := List.map_eq_nil_iff.1 h.symm
      rw [Token.nest_nil hopens]
      rfl
    · obtain ⟨b, bs, rfl, hp, hps⟩ := List.map_eq_cons_iff.1 h.symm
      dsimp only
      split
      · next hcloses =>
        have hb : t.kind.closes? = some b := by
          rw [hp]
          exact beq_iff_eq.1 (Bool.and_eq_true_iff.1 hcloses).2
        rw [Token.nest_of_closes hb]
        exact hps.symm
      · next hstays =>
        rw [Token.nest_of_stays hopens]
        · exact h
        · intro c hc hcloses
          obtain rfl := Option.some.inj hc
          refine hstays (Bool.and_eq_true_iff.2 ⟨?_, ?_⟩)
          · rw [hcloses]
            rfl
          · rw [hcloses, hp]
            exact beq_self_eq_true _

/-- The bracket that closes a block ends what nests inside it. -/
theorem Nesting.push_closer {b : Bracket} {p : Pending} (hp : p.opener.kind.opens? = some b)
    (ps : List Pending) {n : Nesting} (hn : n.pending = []) {t : Token}
    (h : t.kind.closes? = some b) : (n.inside p ps).push t =
      ⟨.block p.opener n.level.reverse (some t) :: p.before, ps⟩ := by
  obtain ⟨level, pending⟩ := n
  obtain rfl : pending = [] := hn
  unfold Nesting.push
  rw [Token.opens?_of_closes? h]
  dsimp only [inside, List.nil_append]
  rw [h, hp]
  exact if_pos (Bool.and_eq_true_iff.2 ⟨rfl, beq_self_eq_true _⟩)

/-- What a block encloses nests inside it as it nests alone, and the bracket that closes the block takes
nesting behind it. -/
theorem Nesting.foldl_push_enclosed {b : Bracket} {p : Pending}
    (hp : p.opener.kind.opens? = some b) (ps : List Pending) {n : Nesting} {bs : List Bracket}
    (hn : n.Opens bs) (ts : List Token) : ts.foldl push (n.inside p ps) =
      match Token.enclosed b bs ts with
      | ⟨inner, none, _⟩ => (inner.foldl push n).inside p ps
      | ⟨inner, some t, rest⟩ => rest.foldl push
          ⟨.block p.opener (finish (inner.foldl push n).level (inner.foldl push n).pending) (some t) ::
            p.before, ps⟩ := by
  induction ts generalizing n bs with
  | nil => rfl
  | cons t ts ih =>
    by_cases hcloser : bs = [] ∧ t.kind.closes? = some b
    · obtain ⟨rfl, hcloses⟩ := hcloser
      have hpending : n.pending = [] := List.map_eq_nil_iff.1 hn
      rw [Token.enclosed_closer hcloses, List.foldl_cons, push_closer hp ps hpending hcloses]
      dsimp only [List.foldl_nil]
      rw [hpending, finish]
    · have hstays : n.pending = [] → t.kind.closes? ≠ some b := by
        intro hpending hcloses
        refine hcloser ⟨?_, hcloses⟩
        rw [Opens, hpending] at hn
        exact List.map_eq_nil_iff.1 hn.symm
      rw [List.foldl_cons, push_inside hp ps hstays, ih (hn.push t), Token.enclosed_cons hcloser]
      rcases Token.enclosed b (t.nest bs) ts with ⟨inner, _ | closer, rest⟩ <;> rfl

theorem Nesting.finish_inside (level : List Component) (ps : List Pending) (p : Pending) :
    finish level (ps ++ [p]) =
      (Component.block p.opener (finish level ps) none :: p.before).reverse := by
  induction ps generalizing level with
  | nil => rfl
  | cons q ps ih => exact ih _

theorem text_leaf (t : Token) : text (.leaf t) = t.text := by
  rw [text, tokens, List.flatMap_singleton]

theorem text_block (opener : Token) (contents : List Component) (closer : Option Token) :
    text (.block opener contents closer) =
      opener.text ++ (tokensOf contents ++ closer.toList).flatMap Token.text := by
  rw [text, tokens, List.cons_append, List.flatMap_cons]

theorem flatMap_text (cs : List Component) :
    cs.flatMap text = (tokensOf cs).flatMap Token.text := by
  induction cs with
  | nil => rw [tokensOf_nil, List.flatMap_nil, List.flatMap_nil]
  | cons c cs ih => rw [List.flatMap_cons, ih, tokensOf_cons, List.flatMap_append, text]

/-! ## Components off the front -/

/-- A token that opens no block is a component of its own at the front of a row. -/
theorem ofTokens_leaf {t : Token} (h : t.kind.opens? = none) (ts : List Token) :
    ofTokens (t :: ts) = .leaf t :: ofTokens ts := by
  have hpush : Nesting.push {} t = Nesting.onTop [.leaf t] {} := by
    rw [Nesting.push, h]
    rfl
  unfold ofTokens
  rw [List.foldl_cons, hpush, Nesting.foldl_push_onTop]
  exact Nesting.finish_onTop _ _ _

/-- A block at the front of a row holds what it encloses. -/
theorem ofTokens_opening {t : Token} {b : Bracket} (h : t.kind.opens? = some b) (ts : List Token) :
    ofTokens (t :: ts) =
      .block t (ofTokens (Token.enclosed b [] ts).inside) (Token.enclosed b [] ts).closer ::
        ofTokens (Token.enclosed b [] ts).rest := by
  have hpush : Nesting.push {} t = Nesting.inside ⟨t, []⟩ [] {} := by
    rw [Nesting.push, h]
    rfl
  have hopens : Nesting.Opens {} [] := rfl
  have hrun := Nesting.foldl_push_enclosed (p := ⟨t, []⟩) h [] hopens ts
  have hend : (Token.enclosed b [] ts).closer = none → (Token.enclosed b [] ts).rest = [] :=
    Token.rest_enclosed_of_closer
  unfold ofTokens
  rw [List.foldl_cons, hpush, hrun]
  generalize Token.enclosed b [] ts = e at hend
  rcases e with ⟨inner, _ | closer, rest⟩
  · obtain rfl : rest = [] := hend rfl
    exact Nesting.finish_inside _ _ _
  · dsimp only
    generalize Component.block t _ (some closer) = c
    have honTop : (⟨[c], []⟩ : Nesting) = Nesting.onTop [c] {} := rfl
    rw [honTop, Nesting.foldl_push_onTop]
    exact Nesting.finish_onTop [c] _ _

/-- Components are read off a row of tokens one after the other. -/
theorem ofTokens_induction {motive : List Token → Prop} (nil : motive [])
    (leaf : ∀ t ts, t.kind.opens? = none → motive ts → motive (t :: ts))
    (block : ∀ t b ts, t.kind.opens? = some b → motive (Token.enclosed b [] ts).inside →
      motive (Token.enclosed b [] ts).rest → motive (t :: ts)) (ts : List Token) : motive ts := by
  induction hlength : ts.length using Nat.strongRecOn generalizing ts with
  | _ n ih =>
    subst hlength
    cases ts with
    | nil => exact nil
    | cons t ts =>
      cases hopens : t.kind.opens? with
      | none => exact leaf t ts hopens (ih _ (Nat.lt_succ_self _) ts rfl)
      | some b =>
        have hinside := Token.length_inside_enclosed b [] ts
        have hrest := Token.length_rest_enclosed b [] ts
        exact block t b ts hopens (ih _ (Nat.lt_succ_of_le hinside) _ rfl)
          (ih _ (Nat.lt_succ_of_le hrest) _ rfl)

/-- What a block encloses stands on the level behind its opening bracket, up to the first bracket there
that closes it. -/
theorem takeWhile_ofTokens (b : Bracket) (ts : List Token) :
    (ofTokens ts).takeWhile (!·.isLeaf (.closing b)) = ofTokens (Token.enclosed b [] ts).inside := by
  induction ts using ofTokens_induction with
  | nil => rfl
  | leaf t ts hopens ih =>
    rw [ofTokens_leaf hopens, List.takeWhile_cons]
    by_cases hkind : t.kind = .closing b
    · have hcloses : t.kind.closes? = some b := by rw [hkind]; rfl
      have hleaf : isLeaf (.closing b) (.leaf t) = true := beq_iff_eq.2 hkind
      rw [hleaf, Token.enclosed_closer hcloses]
      rfl
    · have hcloser : ¬(([] : List Bracket) = [] ∧ t.kind.closes? = some b) :=
        fun h => hkind (Token.Kind.eq_closing_of_closes? h.2)
      have hleaf : isLeaf (.closing b) (.leaf t) = false := beq_eq_false_iff_ne.2 hkind
      rw [hleaf, Token.enclosed_cons hcloser, Token.nest_nil hopens, ofTokens_leaf hopens, ← ih]
      rfl
  | block t c ts hopens _ ih =>
    have hcloser : ¬(([] : List Bracket) = [] ∧ t.kind.closes? = some b) := by
      intro h
      rw [Token.opens?_of_closes? h.2] at hopens
      cases hopens
    have hopen : (Token.enclosed c [] ts).closer = none →
        (Token.enclosed b [] (Token.enclosed c [] ts).rest).inside = [] := by
      intro hnone
      rw [Token.rest_enclosed_of_closer hnone]
      rfl
    have hinner := Token.enclosed_concat b c [] ts
    rw [List.nil_append] at hinner
    rw [Token.enclosed_cons hcloser, Token.nest_of_opens hopens, hinner]
    dsimp only
    rw [ofTokens_opening hopens, List.takeWhile_cons, ofTokens_opening hopens,
      Token.enclosed_inside_append hopen]
    exact congrArg (_ :: ·) ih

/-! ## The contents of blocks -/

/-- A level of components, or what a block on such a level holds, at any depth. -/
inductive Within (cs : List Component) : List Component → Prop
  | here : Within cs cs
  | inside {level contents : List Component} {opener : Token} {closer : Option Token}
    (h : Within cs level) (hmem : .block opener contents closer ∈ level) : Within cs contents

theorem exists_ofTokens_of_mem {ts : List Token} {opener : Token} {contents : List Component}
    {closer : Option Token} (h : .block opener contents closer ∈ ofTokens ts) :
    ∃ us, contents = ofTokens us := by
  induction ts using ofTokens_induction with
  | nil => cases h
  | leaf t ts hopens ih =>
    rw [ofTokens_leaf hopens] at h
    rcases List.mem_cons.1 h with heq | hmem
    · cases heq
    · exact ih hmem
  | block t b ts hopens _ ih =>
    rw [ofTokens_opening hopens] at h
    rcases List.mem_cons.1 h with heq | hmem
    · obtain ⟨-, rfl, -⟩ := Component.block.inj heq
      exact ⟨_, rfl⟩
    · exact ih hmem

/-- What a block holds is what its own tokens nest to. -/
theorem Within.eq_ofTokens {ts : List Token} {contents : List Component}
    (h : Within (ofTokens ts) contents) : contents = ofTokens (tokensOf contents) := by
  have hexists : ∃ us, contents = ofTokens us := by
    induction h with
    | here => exact ⟨ts, rfl⟩
    | inside h hmem ih =>
      obtain ⟨us, rfl⟩ := ih
      exact exists_ofTokens_of_mem hmem
  obtain ⟨us, rfl⟩ := hexists
  rw [tokens_ofTokens]

end Component

end Restyle.Css
