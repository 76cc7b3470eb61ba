import Restyle.Proofs.Alignment
import Restyle.Proofs.Passages
import Restyle.Proofs.ReadBack

/-!
# Passages on a level

The text of some components is the text of a passage, if it starts behind something that a text may
start behind and something follows that a text ends in front of (`textsAlong_trimmedText`); selectors are
the texts of the passages between commas (`textsAlong_pieceTexts`).

`Reached` says that a reader has come to a level: what is left of the source, and that a text may start
here.  The only thing in front of which none may is a semicolon, which a statement without a block leaves
there.  A block that has been refused is passed over with the next text, so its inside is left too.
`AtEnd` says the same of a level behind a prelude.  From there a body leads on (`AtEnd.exists_stands`), or
a refused block (`AtEnd.reached_skipped`).
-/

namespace Restyle.Css

open Component

namespace Component

theorem exists_leaf_of_isLeaf {kind : Token.Kind} {c : Component} (h : c.isLeaf kind = true) :
    ∃ t, c = .leaf t ∧ t.kind = kind := by
  cases c with
  | leaf t => exact ⟨t, rfl, beq_iff_eq.1 h⟩
  | block => cases h

/-! ## Pieces of a level -/

/-- A level is one piece, or it is cut at the first component of some kind. -/
theorem splitOn_cases (p : Component → Bool) (cs : List Component) :
    (∀ c ∈ cs, p c = false) ∧ splitOn p cs = [cs] ∨
      ∃ front c behind, cs = front ++ c :: behind ∧ (∀ d ∈ front, p d = false) ∧ p c = true ∧
        splitOn p cs = front :: splitOn p behind := by
  cases hfind : cs.find? p with
  | none =>
    have hnone : ∀ c ∈ cs, p c = false := fun c hc =>
      Bool.eq_false_iff.2 (List.find?_eq_none.1 hfind c hc)
    exact .inl ⟨hnone, splitOn_of_forall hnone⟩
  | some c =>
    obtain ⟨hc, front, behind, rfl, hfront⟩ := List.find?_eq_some_iff_append.1 hfind
    have hnone : ∀ d ∈ front, p d = false := fun d hd => by simpa using hfront d hd
    exact .inr ⟨front, c, behind, rfl, hnone, hc, splitOn_append hnone hc behind⟩

/-- What holds of one piece and is kept by one more piece in front holds of all pieces of a level. -/
theorem splitOn_induction {p : Component → Bool}
    {motive : List Component → List (List Component) → Prop}
    (one : ∀ cs, (∀ c ∈ cs, p c = false) → motive cs [cs])
    (cons : ∀ front c behind, (∀ d ∈ front, p d = false) → p c = true →
      motive behind (splitOn p behind) → motive (front ++ c :: behind) (front :: splitOn p behind))
    (cs : List Component) : motive cs (splitOn p cs) := by
  induction hlength : cs.length using Nat.strongRecOn generalizing cs with
  | ind n ih =>
    rcases splitOn_cases p cs with ⟨hnone, hsplit⟩ | ⟨front, c, behind, rfl, hfront, hc, hsplit⟩
    · rw [hsplit]
      exact one cs hnone
    · rw [hsplit]
      refine cons front c behind hfront hc (ih behind.length ?_ behind rfl)
      rw [← hlength, List.length_append, List.length_cons]
      omega

theorem plainText_of_forall {cs : List Component} (h : ∀ c ∈ cs, c.isComment = false) :
    plainText cs = (tokensOf cs).flatMap Token.text := by
  have hall : cs.filter (!·.isComment) = cs := by
    rw [List.filter_eq_self]
    intro c hc
    rw [h c hc]
    rfl
  rw [plainText, hall, flatMap_text]

theorem plainText_append_cons {front : List Component} {c : Component}
    (hfront : ∀ d ∈ front, d.isComment = false) (hc : c.isComment = true) (behind : List Component) :
    plainText (front ++ c :: behind) = (tokensOf front).flatMap Token.text ++ plainText behind := by
  have hdrop : (c :: behind).filter (!·.isComment) = behind.filter (!·.isComment) :=
    List.filter_cons_of_neg (by rw [hc]; exact Bool.false_ne_true)
  rw [← plainText_of_forall hfront, plainText, List.filter_append, hdrop, List.flatMap_append,
    plainText, plainText]

/-- The components of a level without the comments among them are pieces of its tokens.  What stands in
front of them joins the first piece. -/
theorem exists_pieces (rest : List Token) (cs : List Component) (lead : List Token) :
    ∃ pieces, Token.Pieces rest (lead ++ (tokensOf cs ++ rest)) pieces ∧
      pieces.flatten.flatMap Token.text = lead.flatMap Token.text ++ plainText cs := by
  have key := splitOn_induction (p := isComment) (motive := fun cs _ => ∀ lead : List Token,
    ∃ pieces, Token.Pieces rest (lead ++ (tokensOf cs ++ rest)) pieces ∧
      pieces.flatten.flatMap Token.text = lead.flatMap Token.text ++ plainText cs)
  refine key (fun cs hnone lead => ?_) (fun front c behind hfront hc ih lead => ?_) cs lead
  · refine ⟨[lead ++ tokensOf cs], ?_, ?_⟩
    · rw [← List.append_assoc]
      exact .one _
    · rw [List.flatten_singleton, List.flatMap_append, plainText_of_forall hnone]
  · obtain ⟨t, rfl, ht⟩ := exists_leaf_of_isLeaf hc
    obtain ⟨pieces, hpieces, htext⟩ := ih []
    refine ⟨(lead ++ tokensOf front) :: pieces, ?_, ?_⟩
    · have hcons := Token.Pieces.cons (lead ++ tokensOf front) ht hpieces
      simpa [tokens] using hcons
    · rw [List.flatten_cons, List.flatMap_append, htext, plainText_append_cons hfront hc,
        List.flatMap_append, List.flatMap_nil, List.nil_append, List.append_assoc]

end Component

/-! ## Texts along a source -/

/-- Texts that are kept of passages which stand in a source one behind the other. -/
def TextsAlong (source ts : List Token) (texts : List String) (us : List Token) : Prop :=
  ∃ ps, Passage.InOrder source ts ps us ∧ ps.map Passage.text = texts

namespace TextsAlong

variable {source ts mid us : List Token} {texts others : List String}

theorem nil (h : us <:+ ts) : TextsAlong source ts [] us :=
  ⟨[], .nil h, rfl⟩

theorem suffix (h : TextsAlong source ts texts us) : us <:+ ts := by
  obtain ⟨ps, hps, -⟩ := h
  exact hps.suffix

theorem of_suffix (h : TextsAlong source mid texts us) (hmid : mid <:+ ts) :
    TextsAlong source ts texts us := by
  obtain ⟨ps, hps, htexts⟩ := h
  exact ⟨ps, hps.of_suffix hmid, htexts⟩

theorem append (h : TextsAlong source ts texts mid) (h' : TextsAlong source mid others us) :
    TextsAlong source ts (texts ++ others) us := by
  obtain ⟨ps, hps, rfl⟩ := h
  obtain ⟨qs, hqs, rfl⟩ := h'
  exact ⟨ps ++ qs, hps.append hqs, List.map_append⟩

theorem sublist (h : TextsAlong source ts texts us) (hothers : List.Sublist others texts) :
    TextsAlong source ts others us := by
  obtain ⟨ps, hps, rfl⟩ := h
  obtain ⟨qs, hqs, rfl⟩ := List.sublist_map_iff.1 hothers
  exact ⟨qs, hps.sublist hqs, rfl⟩

end TextsAlong

/-- The texts of the pieces of a level, with something in front of the first of them. -/
def pieceTexts (lead : List Char) : List (List Component) → List String
  | [] => []
  | first :: others =>
    String.ofList (Text.trim (lead ++ plainText first)) :: others.map trimmedText

theorem pieceTexts_nil (chunks : List (List Component)) :
    pieceTexts [] chunks = chunks.map trimmedText := by
  cases chunks with
  | nil => rfl
  | cons first others => rfl

/-- Selectors are what stands between commas.  A skipped block is a part of the first of them, unless
that is empty. -/
theorem selectorsOf_cons (skipped : Option Skipped) (c : Component) (cs : List Component) :
    selectorsOf skipped (c :: cs) =
      pieceTexts (if c.isComma then [] else (skipped.map Skipped.text).getD [])
        (splitOn isComma (c :: cs)) := by
  unfold selectorsOf
  cases splitOn isComma (c :: cs) with
  | nil => rfl
  | cons first others =>
    cases skipped with
    | none => rw [pieceTexts, Option.map_none, Option.getD_none, ite_self]; rfl
    | some s => rfl

section

variable {source front lead rest : List Token} {cs : List Component}

/-- The text of some components, with a lead in front of it, is the text of a passage. -/
theorem textsAlong_piece (hscanned : ∀ t ∈ source, t.IsScanned)
    (hsource : source = front ++ (lead ++ (tokensOf cs ++ rest))) (hfresh : Token.Fresh front)
    (hends : Token.Ends rest) : TextsAlong source (lead ++ (tokensOf cs ++ rest))
      [String.ofList (Text.trim (lead.flatMap Token.text ++ plainText cs))] rest := by
  obtain ⟨pieces, hpieces, htext⟩ := exists_pieces rest cs lead
  obtain ⟨p, here, hhere, hstands, hp⟩ :=
    Passage.exists_standsAt hsource hscanned hfresh hpieces hends
  refine ⟨[p], .cons hhere hstands (.nil List.suffix_rfl), ?_⟩
  rw [List.map_singleton, hp, htext]

/-- The text of some components is the text of a passage. -/
theorem textsAlong_trimmedText (hscanned : ∀ t ∈ source, t.IsScanned)
    (hsource : source = front ++ (tokensOf cs ++ rest)) (hfresh : Token.Fresh front)
    (hends : Token.Ends rest) : TextsAlong source (tokensOf cs ++ rest) [trimmedText cs] rest :=
  @textsAlong_piece source front [] rest cs hscanned hsource hfresh hends

/-- The texts between commas are texts of passages, and a lead joins the first of them. -/
theorem textsAlong_pieceTexts (hscanned : ∀ t ∈ source, t.IsScanned)
    (hsource : source = front ++ (lead ++ (tokensOf cs ++ rest))) (hfresh : Token.Fresh front)
    (hends : Token.Ends rest) : TextsAlong source (lead ++ (tokensOf cs ++ rest))
      (pieceTexts (lead.flatMap Token.text) (splitOn isComma cs)) rest := by
  have key := splitOn_induction (p := isComma) (motive := fun cs chunks => ∀ front lead : List Token,
    source = front ++ (lead ++ (tokensOf cs ++ rest)) → Token.Fresh front →
      TextsAlong source (lead ++ (tokensOf cs ++ rest))
        (pieceTexts (lead.flatMap Token.text) chunks) rest)
  refine key (fun cs _ front lead hsource hfresh => ?_)
    (fun chunk c behind _ hc ih front lead hsource hfresh => ?_) cs front lead hsource hfresh
  · exact textsAlong_piece hscanned hsource hfresh hends
  · obtain ⟨t, rfl, ht⟩ := exists_leaf_of_isLeaf hc
    have hkind : t.kind.leadsText = true ∧ t.kind.endsText = true := by rw [ht]; exact ⟨rfl, rfl⟩
    have htokens : tokensOf (chunk ++ .leaf t :: behind) ++ rest =
        tokensOf chunk ++ t :: (tokensOf behind ++ rest) := by simp [tokens]
    rw [htokens] at hsource ⊢
    have hbehind : TextsAlong source (tokensOf behind ++ rest)
        ((splitOn isComma behind).map trimmedText) rest := by
      rw [← pieceTexts_nil]
      refine ih (front ++ (lead ++ tokensOf chunk) ++ [t]) [] ?_ (Token.fresh_concat hkind.1 _)
      simp [hsource]
    exact (textsAlong_piece hscanned hsource hfresh (Token.ends_cons hkind.2 _)).append
      (hbehind.of_suffix (List.suffix_cons t _))

end

/-! ## Levels that a reader has come to -/

/-- A level that a reader has come to, with the tokens that are left of a source and those behind the
level.  A text may start here, unless the level goes on with a semicolon.  `lead` is what is left of a
refused block: a text may start in front of it or behind it. -/
inductive Reached (source : List Token) :
    List Token → Option Skipped → List Component → List Token → Prop
  | intro {front lead behind us : List Token} {skipped : Option Skipped} {cs : List Component}
    (hsource : source = front ++ (lead ++ behind))
    (hlead : lead.flatMap Token.text = (skipped.map Skipped.text).getD [])
    (haligned : Aligned behind cs us)
    (hfresh : ∀ c ∈ cs.head?, c.isSemicolon = false →
      Token.Fresh front ∧ Token.Fresh (front ++ lead)) :
    Reached source (lead ++ behind) skipped cs us

/-- A level behind a prelude: it is at its end or goes on with a block in curly brackets or a
semicolon. -/
structure AtEnd (source ts : List Token) (level : List Component) (us : List Token) : Prop where
  suffix : ts <:+ source
  aligned : Aligned ts level us
  isEnd : ∀ c ∈ level.head?, c.isEnd = true

section

variable {source front ts us : List Token} {skipped : Option Skipped} {c : Component}
  {cs level : List Component} {t : Token}

/-- A level behind which no block has been refused. -/
theorem reached_none (hsource : source = front ++ ts) (haligned : Aligned ts cs us)
    (hfresh : ∀ c ∈ cs.head?, c.isSemicolon = false → Token.Fresh front) :
    Reached source ts none cs us := by
  refine @Reached.intro source front [] ts us none cs hsource rfl haligned fun c hc hsemicolon => ?_
  rw [List.append_nil]
  exact ⟨hfresh c hc hsemicolon, hfresh c hc hsemicolon⟩

/-- A level behind a token that a text may start behind. -/
theorem reached_behind (h : t.kind.leadsText = true) (hsource : t :: ts <:+ source)
    (haligned : Aligned ts cs us) : Reached source ts none cs us := by
  obtain ⟨front, rfl⟩ := hsource
  exact reached_none (List.append_cons front t ts) haligned fun _ _ _ => Token.fresh_concat h front

theorem Reached.suffix (h : Reached source ts skipped cs us) : us <:+ ts := by
  obtain ⟨hsource, hlead, haligned, hfresh⟩ := h
  rw [haligned.eq_append, ← List.append_assoc]
  exact List.suffix_append _ us

theorem Reached.suffix_source (h : Reached source ts skipped cs us) : ts <:+ source := by
  obtain ⟨rfl, hlead, haligned, hfresh⟩ := h
  exact List.suffix_append _ _

theorem Reached.exists_aligned_leaf (h : Reached source ts skipped (.leaf t :: cs) us) :
    ∃ mid, t :: mid <:+ ts ∧ Aligned mid cs us := by
  obtain @⟨front, lead, _, _, _, _, -, -, haligned, -⟩ := h
  cases haligned with
  | @leaf _ mid _ _ rest => exact ⟨mid, List.suffix_append lead _, rest⟩

/-- A token at the front of a level is passed over, if a text may start behind it. -/
theorem Reached.exists_behind_leaf (h : Reached source ts skipped (.leaf t :: cs) us)
    (ht : t.isMargin = true ∨ t.kind.leadsText = true) :
    ∃ mid, t :: mid <:+ ts ∧ Reached source mid none cs us := by
  rcases ht with hmargin | hleads
  · obtain @⟨front, lead, _, _, _, _, rfl, hlead, haligned, hfresh⟩ := h
    have hsemicolon : (leaf t).isSemicolon = false := by
      rw [isSemicolon, isLeaf, beq_eq_false_iff_ne]
      intro hkind
      rw [Token.isMargin, hkind] at hmargin
      cases hmargin
    cases haligned with
    | @leaf _ mid _ _ rest =>
      have hsource : front ++ (lead ++ t :: mid) = front ++ lead ++ [t] ++ mid := by simp
      refine ⟨mid, List.suffix_append lead _, reached_none hsource rest fun _ _ _ => ?_⟩
      refine (hfresh _ rfl hsemicolon).2.append_margin ?_
      exact List.forall_mem_singleton.2 hmargin
  · obtain ⟨mid, hmid, haligned⟩ := h.exists_aligned_leaf
    exact ⟨mid, hmid, reached_behind hleads (hmid.trans h.suffix_source) haligned⟩

/-! ## Preludes -/

/-- A level from where its prelude ends. -/
theorem Component.Aligned.exists_atEnd {p : Component → Bool} (h : Aligned ts cs us)
    (hts : ts <:+ source) (hend : ∀ c ∈ (cs.dropWhile p).head?, c.isEnd = true) :
    ∃ mid, ts = tokensOf (cs.takeWhile p) ++ mid ∧ AtEnd source mid (cs.dropWhile p) us := by
  obtain ⟨mid, hsuffix, hmid⟩ := h.of_suffix (List.dropWhile_suffix p)
  refine ⟨mid, ?_, hsuffix.trans hts, hmid, hend⟩
  rw [h.eq_append, hmid.eq_append, ← List.append_assoc, ← tokensOf_append,
    List.takeWhile_append_dropWhile]

theorem isEnd_of_mem_head?_fromCurly : ∀ c ∈ (fromCurly cs).head?, c.isEnd = true := by
  intro c hc
  have hhead := List.head?_dropWhile_not (fun c : Component => !c.isCurly) cs
  rw [fromCurly, Option.mem_def] at hc
  rw [hc] at hhead
  have hcurly : c.isCurly = true := by simpa using hhead
  rw [isEnd, hcurly]
  rfl

theorem isEnd_of_mem_head?_fromEnd : ∀ c ∈ (fromEnd cs).head?, c.isEnd = true := by
  intro c hc
  have hhead := List.head?_dropWhile_not (fun c : Component => !(c.isCurly || c.isSemicolon)) cs
  rw [fromEnd, Option.mem_def] at hc
  rw [hc] at hhead
  have hend : (!c.isEnd) = false := hhead
  simpa using hend

/-- A text ends in front of what ends a prelude. -/
theorem AtEnd.ends (h : AtEnd source ts level us) (hus : Token.Ends us) : Token.Ends ts := by
  obtain ⟨-, haligned, hends⟩ := h
  rw [haligned.eq_append]
  cases level with
  | nil => rwa [tokensOf_nil, List.nil_append]
  | cons c level =>
    have hc := hends c rfl
    rw [tokensOf_cons]
    cases c with
    | leaf t =>
      refine Token.ends_cons ?_ _
      have hkind : t.kind = .semicolon := beq_iff_eq.1 hc
      rw [hkind]
      rfl
    | block opener contents closer =>
      refine Token.ends_cons ?_ _
      rw [Component.isEnd, isSemicolon, isLeaf, Bool.or_false] at hc
      have hkind : opener.kind = .opening .curly := beq_iff_eq.1 hc
      rw [hkind]
      rfl

/-- What a reader comes to when it passes over the front of a level. -/
theorem Reached.exists_atEnd_dropWhile {p : Component → Bool}
    (h : Reached source ts skipped cs us) (hend : ∀ c ∈ (cs.dropWhile p).head?, c.isEnd = true) :
    ∃ mid, mid <:+ ts ∧ AtEnd source mid (cs.dropWhile p) us := by
  have hsource := h.suffix_source
  obtain @⟨front, lead, behind, _, _, _, -, -, haligned, -⟩ := h
  obtain ⟨mid, rfl, hmid⟩ := haligned.exists_atEnd ((List.suffix_append lead _).trans hsource) hend
  exact ⟨mid, (List.suffix_append _ mid).trans (List.suffix_append lead _), hmid⟩

/-- The prelude of an at-rule is the text of a passage. -/
theorem exists_atEnd_fromEnd (hscanned : ∀ t ∈ source, t.IsScanned) (hsource : source = front ++ ts)
    (haligned : Aligned ts cs us) (hfresh : Token.Fresh front) (hus : Token.Ends us) :
    ∃ mid, TextsAlong source ts [trimmedText (untilEnd cs)] mid ∧ AtEnd source mid (fromEnd cs) us := by
  obtain ⟨mid, rfl, hend⟩ :=
    haligned.exists_atEnd (hsource ▸ List.suffix_append front ts) isEnd_of_mem_head?_fromEnd
  exact ⟨mid, textsAlong_trimmedText hscanned hsource hfresh (hend.ends hus), hend⟩

/-- Selectors behind something that a text may start behind are the texts of passages. -/
theorem exists_atEnd_fromCurly (hscanned : ∀ t ∈ source, t.IsScanned) (hsource : source = front ++ ts)
    (haligned : Aligned ts cs us) (hfresh : Token.Fresh front) (hus : Token.Ends us) :
    ∃ mid, TextsAlong source ts (selectorsOf none (untilCurly cs)) mid ∧
      AtEnd source mid (fromCurly cs) us := by
  obtain ⟨mid, rfl, hend⟩ :=
    haligned.exists_atEnd (hsource ▸ List.suffix_append front ts) isEnd_of_mem_head?_fromCurly
  have hselectors : selectorsOf none (untilCurly cs) =
      pieceTexts [] (splitOn isComma (untilCurly cs)) := by
    rw [selectorsOf_none, pieceTexts_nil]
    rfl
  rw [hselectors]
  exact ⟨mid, @textsAlong_pieceTexts source front [] mid _ hscanned hsource hfresh (hend.ends hus),
    hend⟩

/-- Selectors in front of a block are the texts of passages. -/
theorem Reached.exists_atEnd_fromCurly (h : Reached source ts skipped (c :: cs) us)
    (hscanned : ∀ t ∈ source, t.IsScanned) (hus : Token.Ends us) (hcurly : c.isCurly = false)
    (hsemicolon : c.isSemicolon = false) :
    ∃ mid, TextsAlong source ts (selectorsOf skipped (untilCurly (c :: cs))) mid ∧
      AtEnd source mid (fromCurly (c :: cs)) us := by
  have hsuffix := h.suffix_source
  obtain @⟨front, lead, _, _, _, _, hsource, hlead, haligned, hfresh⟩ := h
  obtain ⟨hfront, hbehind⟩ := hfresh c rfl hsemicolon
  obtain ⟨mid, rfl, hend⟩ := haligned.exists_atEnd ((List.suffix_append lead _).trans hsuffix)
    isEnd_of_mem_head?_fromCurly
  refine ⟨mid, ?_, hend⟩
  have hends := hend.ends hus
  have huntil : (c :: cs).takeWhile (!·.isCurly) = c :: cs.takeWhile (!·.isCurly) := by
    rw [List.takeWhile_cons, hcurly]
    rfl
  rw [untilCurly, huntil, selectorsOf_cons, ← huntil]
  cases hcomma : c.isComma with
  | true =>
    -- the block in front is no part of a selector that is empty
    rw [← List.append_assoc] at hsource
    exact (@textsAlong_pieceTexts source (front ++ lead) [] mid _ hscanned hsource hbehind
      hends).of_suffix (List.suffix_append lead _)
  | false =>
    rw [if_neg Bool.false_ne_true, ← hlead]
    exact textsAlong_pieceTexts hscanned hsource hfront hends

/-! ## Behind a prelude -/

/-- Where a body stands in a source, which it leaves at `us`. -/
inductive Body.Stands (source : List Token) : List Token → Body → List Token → Prop
  | missing {ts us : List Token} (place : Location) (h : us <:+ ts) : Stands source ts (.missing place) us
  | block {ts inner last us : List Token} {contents : List Component} (stop : Location) (closed : Bool)
    (hinner : inner <:+ ts) (h : Reached source inner none contents last) (hlast : Token.Ends last)
    (hus : us <:+ last) : Stands source ts (.block contents stop closed) us

/-- The curly block at the end of a prelude. -/
theorem AtEnd.exists_of_curly {opener : Token} {contents : List Component} {closer : Option Token}
    (h : AtEnd source ts (.block opener contents closer :: cs) us)
    (hcurly : opener.kind = .opening .curly) :
    ∃ inner behind, ts = opener :: inner ∧ Aligned inner contents (closer.toList ++ behind) ∧
      Aligned behind cs us ∧ (∀ t ∈ closer, t.kind = .closing .curly) ∧
      (closer = none → behind = [] ∧ cs = []) := by
  obtain ⟨b, inner, behind, hopens, rfl, hinner, hbehind, hcloser, hopen⟩ :=
    h.aligned.exists_of_block
  rw [hcurly] at hopens
  obtain rfl : Bracket.curly = b := Option.some.inj hopens
  exact ⟨inner, behind, rfl, hinner, hbehind, hcloser, hopen⟩

/-- A level that goes on with a semicolon, or not at all, is one that a reader has come to. -/
theorem AtEnd.reached (h : AtEnd source ts level us)
    (hcurly : ∀ c ∈ level.head?, c.isCurly = false) : Reached source ts none level us := by
  obtain ⟨front, hsource⟩ := h.suffix
  refine reached_none hsource.symm h.aligned fun c hc hsemicolon => ?_
  have hend := h.isEnd c hc
  rw [Component.isEnd, hcurly c hc, hsemicolon] at hend
  cases hend

/-- The level behind a curly block. -/
theorem reached_behind_block {opener : Token} {inner behind : List Token} {closer : Option Token}
    {contents : List Component} (hsource : opener :: inner <:+ source)
    (hinner : Aligned inner contents (closer.toList ++ behind)) (hbehind : Aligned behind cs us)
    (hcloser : ∀ t ∈ closer, t.kind = .closing .curly) (hopen : closer = none → behind = [] ∧ cs = []) :
    Reached source behind none cs us := by
  have hrest : closer.toList ++ behind <:+ source := by
    refine List.IsSuffix.trans ?_ ((List.suffix_cons opener inner).trans hsource)
    rw [hinner.eq_append]
    exact List.suffix_append _ _
  cases closer with
  | none =>
    obtain ⟨rfl, rfl⟩ := hopen rfl
    exact reached_none (List.append_nil source).symm hbehind nofun
  | some closer =>
    refine reached_behind ?_ hrest hbehind
    rw [hcloser closer rfl]
    rfl

/-- Behind a prelude stands a body, and a reader comes to the level behind that. -/
theorem AtEnd.exists_stands (h : AtEnd source ts level us) (stop : Location) :
    ∃ mid, Body.Stands source ts (Body.ofLevel stop level).1 mid ∧
      Reached source mid none (Body.ofLevel stop level).2 us := by
  rcases hbody : Body.ofLevel stop level with ⟨body, rest⟩
  rcases Body.cases_ofLevel hbody with
    ⟨place, rfl, rfl, hfront⟩ | ⟨opener, contents, closer, rfl, hcurly, rfl⟩
  · exact ⟨ts, .missing place List.suffix_rfl, h.reached hfront⟩
  · obtain ⟨inner, behind, rfl, hinner, hbehind, hcloser, hopen⟩ := h.exists_of_curly hcurly
    have hleads : opener.kind.leadsText = true := by rw [hcurly]; rfl
    have hends : Token.Ends (closer.toList ++ behind) := by
      cases closer with
      | none =>
        obtain ⟨rfl, -⟩ := hopen rfl
        exact Token.ends_nil
      | some closer =>
        refine Token.ends_cons ?_ behind
        rw [hcloser closer rfl]
        rfl
    exact ⟨behind, .block _ _ (List.suffix_cons opener inner) (reached_behind hleads h.suffix hinner)
      hends (List.suffix_append _ _), reached_behind_block h.suffix hinner hbehind hcloser hopen⟩

/-- A statement without a block ends with a semicolon or with its level. -/
theorem AtEnd.exists_afterEnd (h : AtEnd source ts level us) {rest : List Component}
    (hrest : AtRule.afterEnd? level = some rest) :
    ∃ mid, mid <:+ ts ∧ Reached source mid none rest us := by
  cases level with
  | nil =>
    obtain rfl := Option.some.inj hrest
    exact ⟨ts, List.suffix_rfl, h.reached nofun⟩
  | cons c cs =>
    rw [AtRule.afterEnd?, Option.ite_none_right_eq_some] at hrest
    obtain ⟨hc, hrest⟩ := hrest
    obtain rfl := Option.some.inj hrest
    obtain ⟨t, rfl, ht⟩ := exists_leaf_of_isLeaf hc
    have hleads : t.kind.leadsText = true := by rw [ht]; rfl
    obtain ⟨hsource, haligned, -⟩ := h
    cases haligned with
    | @leaf _ mid _ _ hmid =>
      exact ⟨mid, List.suffix_cons t mid, reached_behind hleads hsource hmid⟩

/-- A block that is refused behind a prelude is left with the level behind it. -/
theorem AtEnd.reached_skipped (h : AtEnd source ts level us) :
    ∃ mid, mid <:+ ts ∧ Reached source mid (Skipped.ofLevel level).1 (Skipped.ofLevel level).2 us := by
  rcases level with _ | ⟨_ | ⟨opener, contents, closer⟩, cs⟩
  · exact ⟨ts, List.suffix_rfl, h.reached nofun⟩
  · refine ⟨ts, List.suffix_rfl, h.reached fun c hc => ?_⟩
    obtain rfl := Option.some.inj hc
    rfl
  · have hcurly : opener.kind = .opening .curly := by
      have hend := h.isEnd _ rfl
      rw [Component.isEnd, isSemicolon, isLeaf, Bool.or_false] at hend
      exact beq_iff_eq.1 hend
    obtain ⟨inner, behind, rfl, hinner, hbehind, hcloser, hopen⟩ := h.exists_of_curly hcurly
    obtain ⟨front, rfl⟩ := h.suffix
    have hleads : opener.kind.leadsText = true := by rw [hcurly]; rfl
    rw [Skipped.ofLevel, if_pos hcurly, hinner.eq_append, ← List.append_assoc]
    refine ⟨tokensOf contents ++ closer.toList ++ behind, List.suffix_cons _ _, ?_⟩
    refine Reached.intro (List.append_cons front opener _) ?_ hbehind fun c hc _ => ?_
    · rw [List.flatMap_append, flatMap_text]
      rfl
    · refine ⟨Token.fresh_concat hleads front, ?_⟩
      cases closer with
      | none =>
        -- nothing stands behind a block that is open
        rw [(hopen rfl).2] at hc
        cases hc
      | some closer =>
        rw [← List.append_assoc]
        refine Token.fresh_concat ?_ _
        rw [hcloser closer rfl]
        rfl

end

end Restyle.Css
