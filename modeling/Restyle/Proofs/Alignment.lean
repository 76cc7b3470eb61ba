import Restyle.Proofs.Enclosed
import Restyle.Proofs.Levels

/-!
# Components along the tokens of a text

`Component.Aligned ts cs us` says that a level of components has been read off the tokens `ts`, which
run to the end of the text, and that `us` is left behind it.  A block that is closed ends at the
bracket that matches its opening one among all that follows, and a block that is open has none there
and takes all tokens that are left.  So a level with tokens left behind it has no open block, at any
depth.

The components of a text are aligned with its tokens (`aligned_ofText`).  What makes this true of the
inside of a closed block is that its own tokens leave nothing open (`Token.opened_of_closer`), so the
bracket that matches one of them does not move when the rest of the text is there.

The second part of the module says where on its level a statement looks for its body
(`Statement.bodyLevel`), and that it leaves what is behind that (`Statement.ofLevel_bodyLevel`).
-/

namespace Restyle.Css

namespace Token

variable {b : Bracket} {bs : List Bracket} {t closer : Token} {ts : List Token}

/-- The brackets that are open behind a row of tokens, innermost first, given those that are open in
front of it. -/
def opened (bs : List Bracket) (ts : List Token) : List Bracket :=
  ts.foldl (fun bs t => t.nest bs) bs

theorem opened_cons (bs : List Bracket) (t : Token) (ts : List Token) :
    opened bs (t :: ts) = opened (t.nest bs) ts := rfl

/-- What closes a block is a closing bracket. -/
theorem kind_of_closer_enclosed (h : (enclosed b bs ts).closer = some closer) :
    closer.kind = .closing b := by
  induction ts generalizing bs with
  | nil => cases h
  | cons t ts ih =>
    by_cases hcloser : bs = [] ∧ t.kind.closes? = some b
    · obtain ⟨rfl, hcloses⟩ := hcloser
      rw [enclosed_closer hcloses] at h
      obtain rfl := Option.some.inj h
      exact Kind.eq_closing_of_closes? hcloses
    · rw [enclosed_cons hcloser] at h
      exact ih h

/-- What a closed block encloses leaves nothing open, and what stands behind the block is read with
nothing open. -/
theorem opened_of_closer (h : (enclosed b bs ts).closer = some closer) :
    opened bs (enclosed b bs ts).inside = [] ∧
      opened (bs ++ [b]) ts = opened [] (enclosed b bs ts).rest := by
  induction ts generalizing bs with
  | nil => cases h
  | cons t ts ih =>
    by_cases hcloser : bs = [] ∧ t.kind.closes? = some b
    · obtain ⟨rfl, hcloses⟩ := hcloser
      rw [enclosed_closer hcloses, List.nil_append, opened_cons, nest_of_closes hcloses]
      exact ⟨rfl, rfl⟩
    · rw [enclosed_cons hcloser] at h ⊢
      rw [opened_cons, opened_cons, nest_concat hcloser]
      exact ih h

/-- A row of tokens that leaves nothing open closes every block that it is read in. -/
theorem exists_closer_of_opened (h : opened (bs ++ [b]) ts = []) :
    ∃ closer, (enclosed b bs ts).closer = some closer := by
  induction ts generalizing bs with
  | nil => exact absurd h (List.concat_ne_nil b bs)
  | cons t ts ih =>
    by_cases hcloser : bs = [] ∧ t.kind.closes? = some b
    · obtain ⟨rfl, hcloses⟩ := hcloser
      exact ⟨t, by rw [enclosed_closer hcloses]⟩
    · rw [opened_cons, nest_concat hcloser] at h
      rw [enclosed_cons hcloser]
      exact ih h

/-- A bracket that closes a block does so whatever stands behind it. -/
theorem closer_enclosed_append (h : (enclosed b bs ts).closer = some closer) (us : List Token) :
    (enclosed b bs (ts ++ us)).closer = some closer := by
  induction ts generalizing bs with
  | nil => cases h
  | cons t ts ih =>
    rw [List.cons_append]
    by_cases hcloser : bs = [] ∧ t.kind.closes? = some b
    · obtain ⟨rfl, hcloses⟩ := hcloser
      rw [enclosed_closer hcloses] at h ⊢
      exact h
    · rw [enclosed_cons hcloser] at h ⊢
      exact ih h

end Token

namespace Component

/-- A level of components that has been read off the tokens up to the end of a text, and the tokens
that are left behind it. -/
inductive Aligned : List Token → List Component → List Token → Prop
  | nil (ts : List Token) : Aligned ts [] ts
  | leaf {t : Token} {ts us : List Token} {cs : List Component} (rest : Aligned ts cs us) :
    Aligned (t :: ts) (.leaf t :: cs) us
  /-- A block that a bracket closes. -/
  | closed {opener closer : Token} {b : Bracket} {ts behind us : List Token}
    {contents cs : List Component} (hopens : opener.kind.opens? = some b)
    (hcloser : (Token.enclosed b [] ts).closer = some closer)
    (inside : Aligned ts contents (closer :: behind)) (rest : Aligned behind cs us) :
    Aligned (opener :: ts) (.block opener contents (some closer) :: cs) us
  /-- A block that runs to the end of the text. -/
  | cut {opener : Token} {b : Bracket} {ts : List Token} {contents : List Component}
    (hopens : opener.kind.opens? = some b) (hcloser : (Token.enclosed b [] ts).closer = none)
    (inside : Aligned ts contents []) : Aligned (opener :: ts) [.block opener contents none] []

namespace Aligned

variable {ts us : List Token} {cs ds : List Component}

theorem eq_append (h : Aligned ts cs us) : ts = tokensOf cs ++ us := by
  induction h with
  | nil => rfl
  | leaf _ ih => rw [ih, tokensOf_cons, tokens, List.append_assoc, List.singleton_append]
  | closed _ _ _ _ inside rest => simp [inside, rest, tokens]
  | cut _ _ _ inside => simp [inside, tokens]

/-- What follows the first components of a level. -/
theorem of_suffix (h : Aligned ts cs us) (hsuffix : ds <:+ cs) :
    ∃ mid, mid <:+ ts ∧ Aligned mid ds us := by
  induction h with
  | nil ts =>
    obtain rfl := List.suffix_nil.1 hsuffix
    exact ⟨ts, List.suffix_rfl, .nil ts⟩
  | leaf rest ih =>
    rcases List.suffix_cons_iff.1 hsuffix with rfl | hsuffix
    · exact ⟨_, List.suffix_rfl, .leaf rest⟩
    · obtain ⟨mid, hmid, haligned⟩ := ih hsuffix
      exact ⟨mid, hmid.trans (List.suffix_cons _ _), haligned⟩
  | @closed opener closer b ts behind us contents cs hopens hcloser inside rest _ ih =>
    rcases List.suffix_cons_iff.1 hsuffix with rfl | hsuffix
    · exact ⟨_, List.suffix_rfl, .closed hopens hcloser inside rest⟩
    · obtain ⟨mid, hmid, haligned⟩ := ih hsuffix
      have hbehind : behind <:+ ts := by
        rw [inside.eq_append]
        exact (List.suffix_cons closer behind).trans (List.suffix_append _ _)
      exact ⟨mid, (hmid.trans hbehind).trans (List.suffix_cons _ _), haligned⟩
  | cut hopens hcloser inside =>
    rcases List.suffix_cons_iff.1 hsuffix with rfl | hsuffix
    · exact ⟨_, List.suffix_rfl, .cut hopens hcloser inside⟩
    · obtain rfl := List.suffix_nil.1 hsuffix
      exact ⟨[], List.nil_suffix, .nil []⟩

/-- A block at the front of a level: its inside ends at its closing bracket, or at the end of the text
where nothing is left behind the block either. -/
theorem exists_of_block {opener : Token} {contents : List Component} {closer : Option Token}
    (h : Aligned ts (.block opener contents closer :: cs) us) :
    ∃ b inner behind, opener.kind.opens? = some b ∧ ts = opener :: inner ∧
      Aligned inner contents (closer.toList ++ behind) ∧ Aligned behind cs us ∧
      (∀ t ∈ closer, t.kind = .closing b) ∧ (closer = none → behind = [] ∧ cs = []) := by
  cases h with
  | @closed _ closer b inner behind _ _ _ hopens hcloser inside rest =>
    refine ⟨b, inner, behind, hopens, rfl, inside, rest, fun t ht => ?_, nofun⟩
    obtain rfl := Option.some.inj ht
    exact Token.kind_of_closer_enclosed hcloser
  | @cut _ b inner _ hopens _ inside =>
    exact ⟨b, inner, [], hopens, rfl, inside, .nil [], nofun, fun _ => ⟨rfl, rfl⟩⟩

end Aligned

/-- The components of a row of tokens are aligned with it, at the end of a text or where nothing is
left open. -/
theorem aligned_ofTokens (ts us : List Token) (h : us = [] ∨ Token.opened [] ts = []) :
    Aligned (ts ++ us) (ofTokens ts) us := by
  induction ts using ofTokens_induction generalizing us with
  | nil => exact .nil us
  | leaf t ts hopens ih =>
    rw [ofTokens_leaf hopens]
    refine .leaf (ih us (h.imp_right fun hopened => ?_))
    rwa [Token.opened_cons, Token.nest_nil hopens] at hopened
  | block t b ts hopens ihInside ihRest =>
    rw [ofTokens_opening hopens]
    have happend := Token.enclosed_append b [] ts
    cases hcloser : (Token.enclosed b [] ts).closer with
    | none =>
      -- an open block takes all, so nothing can stand behind the row
      have hus : us = [] := by
        refine h.resolve_right fun hopened => ?_
        rw [Token.opened_cons, Token.nest_of_opens hopens, ← List.nil_append [b]] at hopened
        obtain ⟨closer, hsome⟩ := Token.exists_closer_of_opened hopened
        rw [hcloser] at hsome
        cases hsome
      subst hus
      have hrest := Token.rest_enclosed_of_closer hcloser
      rw [hcloser, hrest, Option.toList_none, List.append_nil, List.append_nil] at happend
      have inside := ihInside [] (.inl rfl)
      rw [List.append_nil, happend] at inside
      rw [hrest, List.append_nil, happend]
      exact .cut hopens hcloser inside
    | some closer =>
      obtain ⟨hinside, hbehind⟩ := Token.opened_of_closer hcloser
      rw [hcloser, Option.toList_some, List.append_assoc, List.singleton_append] at happend
      have inside := ihInside (closer :: ((Token.enclosed b [] ts).rest ++ us)) (.inr hinside)
      rw [← List.cons_append, ← List.append_assoc, happend] at inside
      refine .closed hopens (Token.closer_enclosed_append hcloser us) inside
        (ihRest us (h.imp_right fun hopened => ?_))
      rw [Token.opened_cons, Token.nest_of_opens hopens] at hopened
      exact hbehind.symm.trans hopened

/-- The components of a text are aligned with its tokens. -/
theorem aligned_ofText (loc : Location) (text : List Char) :
    Aligned (Token.lex loc text) (ofText loc text) [] := by
  have h := aligned_ofTokens (Token.lex loc text) [] (.inl rfl)
  rwa [List.append_nil] at h

end Component

/-! ## The bodies of statements -/

open Component

/-- The body of a level is the block in curly brackets at its front, or missing if there is none. -/
theorem Body.cases_ofLevel {stop : Location} {level rest : List Component} {body : Body}
    (h : Body.ofLevel stop level = (body, rest)) :
    (∃ place, body = .missing place ∧ rest = level ∧ ∀ c ∈ level.head?, c.isCurly = false) ∨
      ∃ opener contents closer, level = .block opener contents closer :: rest ∧
        opener.kind = .opening .curly ∧
        body = .block contents ((closer.map Token.start).getD stop) closer.isSome := by
  rcases level with _ | ⟨_ | ⟨opener, contents, closer⟩, cs⟩
  · obtain ⟨rfl, rfl⟩ := Prod.mk.inj h
    exact .inl ⟨_, rfl, rfl, nofun⟩
  · obtain ⟨rfl, rfl⟩ := Prod.mk.inj h
    refine .inl ⟨_, rfl, rfl, fun c hc => ?_⟩
    obtain rfl := Option.some.inj hc
    rfl
  · by_cases hcurly : opener.kind = .opening .curly
    · rw [ofLevel, if_pos hcurly] at h
      obtain ⟨rfl, rfl⟩ := Prod.mk.inj h
      exact .inr ⟨opener, contents, closer, rfl, hcurly, rfl⟩
    · rw [ofLevel, if_neg hcurly] at h
      obtain ⟨rfl, rfl⟩ := Prod.mk.inj h
      refine .inl ⟨_, rfl, rfl, fun c hc => ?_⟩
      obtain rfl := Option.some.inj hc
      exact beq_eq_false_iff_ne.2 hcurly

namespace Statement

/-- The body of a statement, with the construct that it belongs to. -/
def body? : Statement → Option (Construct × Body)
  | .group head body => some (head.construct, body)
  | .flat (.style _ body) => some (.plain, body)
  | .flat (.keyframes _ _ body) => some (.keyframes, body)
  | .flat (.fontFace body) => some (.fontFace, body)
  | .flat (.page _ body) => some (.page, body)
  | .flat _ => none

/-- The rest of a level from where its first statement looks for a body: the next block in curly
brackets and, for most at-rules, the next semicolon. -/
def bodyLevel (c : Component) (cs : List Component) : List Component :=
  match c with
  | .block _ _ _ => fromCurly (c :: cs)
  | .leaf t =>
    if t.kind = .atKeyword then
      match AtRule.form? t cs with
      | none => fromCurly (c :: cs)
      | some .page => fromCurly cs
      | some _ => fromEnd cs
    else fromCurly (c :: cs)

theorem bodyLevel_suffix (c : Component) (cs : List Component) : bodyLevel c cs <:+ c :: cs := by
  have hcurly : fromCurly (c :: cs) <:+ c :: cs := List.dropWhile_suffix _
  unfold bodyLevel
  split
  · exact hcurly
  · split
    · split
      · exact hcurly
      · exact (List.dropWhile_suffix _).trans (List.suffix_cons _ _)
      · exact (List.dropWhile_suffix _).trans (List.suffix_cons _ _)
    · exact hcurly

variable {stop : Location} {skipped : Option Skipped} {c : Component} {cs : List Component}
  {construct : Construct} {body : Body}

theorem ofLevel_fromCurly_of_cutStyle
    (h : (cutStyle stop skipped c cs).statement.body? = some (construct, body)) :
    Body.ofLevel stop (fromCurly (c :: cs)) = (body, (cutStyle stop skipped c cs).rest) ∧
      (cutStyle stop skipped c cs).skipped = none := by
  unfold cutStyle at h ⊢
  dsimp only at h ⊢
  split at h
  · cases h
  · next hselectors =>
    obtain ⟨-, rfl⟩ := Prod.mk.inj (Option.some.inj h)
    rw [if_neg hselectors]
    exact ⟨rfl, rfl⟩

/-- A statement with a body has taken it off its level at the place where it looks for it, and
nothing has been refused. -/
theorem ofLevel_bodyLevel
    (h : (cut stop skipped c cs).statement.body? = some (construct, body)) :
    Body.ofLevel stop (bodyLevel c cs) = (body, (cut stop skipped c cs).rest) ∧
      (cut stop skipped c cs).skipped = none := by
  cases c with
  | block opener contents closer => exact ofLevel_fromCurly_of_cutStyle h
  | leaf t =>
    by_cases hkeyword : t.kind = .atKeyword
    · have hcut : cut stop skipped (.leaf t) cs = cutAtRule stop skipped t (.leaf t) cs := by
        rw [cut, hkeyword]
      rw [hcut, cutAtRule_eq] at h ⊢
      rw [bodyLevel, if_pos hkeyword]
      cases hform : AtRule.form? t cs with
      | none =>
        rw [hform] at h
        exact ofLevel_fromCurly_of_cutStyle h
      | some form =>
        rw [hform] at h
        cases form with
        | keyframes vendor =>
          dsimp only [cutForm, cutKeyframes] at h ⊢
          split at h
          · cases h
          · next hname =>
            obtain ⟨-, rfl⟩ := Prod.mk.inj (Option.some.inj h)
            rw [if_neg hname]
            exact ⟨rfl, rfl⟩
        | whole rule rest => cases h
        | group head | page | fontFace =>
          obtain ⟨-, rfl⟩ := Prod.mk.inj (Option.some.inj h)
          exact ⟨rfl, rfl⟩
    · rw [bodyLevel, if_neg hkeyword]
      unfold cut at h ⊢
      dsimp only at h ⊢
      split at h
      case h_7 hkind => exact absurd hkind hkeyword
      case h_8 => exact ofLevel_fromCurly_of_cutStyle h
      all_goals cases h

end Statement

end Restyle.Css
