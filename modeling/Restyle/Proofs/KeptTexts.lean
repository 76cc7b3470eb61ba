import Restyle.Proofs.DividedPassages
import Restyle.Proofs.LevelPassages
import Restyle.Proofs.WellFormed

/-!
# The texts that a tree keeps

Selectors, preludes and values keep text of the source.  `Rule.Holds` lists these texts of a rule in the
order in which they stand there, and a reader that comes to a level with some tokens left gives entries
with the texts of passages along these tokens (`Reading.Quotes`).

A statement is cut off its level in one of three ways (`Statement.Stands`), and each of them says where in
the source its texts stand and where the reader comes to next.  So every text of a style sheet is that of
a passage, and it has the tokens of that passage exactly if the passage survives
(`Stylesheet.kept_tokens_iff`).
-/

namespace Restyle.Css

open Component Reading

/-! ## The texts of a tree -/

def DeclarationEntry.texts : DeclarationEntry → List String
  | .declaration d => [d.value]
  | .comment _ => []

def FrameEntry.texts : FrameEntry → List String
  | .frame f => f.moments ++ f.declarations.flatMap DeclarationEntry.texts
  | .comment _ => []

def Group.texts : Group → List String
  | .media query => [query]
  | .supports condition => [condition]
  | .document matcher _ => [matcher]
  | .host => []

mutual

/-- The texts that a rule holds.  A custom media rule holds one text, which has been taken apart into its
name and its query (`Passage.TakenApart`). -/
inductive Rule.Holds : Rule → List String → Prop
  | style (selectors : List String) (declarations : List DeclarationEntry) :
    Holds (.style selectors declarations)
      (selectors ++ declarations.flatMap DeclarationEntry.texts)
  | comment (text : String) : Holds (.comment text) []
  | group (head : Group) {rules : List Rule} {texts : List String} (h : HoldAll rules texts) :
    Holds (.group head rules) (head.texts ++ texts)
  | keyframes (name : String) (vendor : Option String) (frames : List FrameEntry) :
    Holds (.keyframes name vendor frames) (name :: frames.flatMap FrameEntry.texts)
  | fontFace (declarations : List DeclarationEntry) :
    Holds (.fontFace declarations) (declarations.flatMap DeclarationEntry.texts)
  | page (selectors : List String) (declarations : List DeclarationEntry) :
    Holds (.page selectors declarations)
      (selectors ++ declarations.flatMap DeclarationEntry.texts)
  | customMedia {name query text : String}
    (h : AtRule.customMedia? text = some (.customMedia name query)) :
    Holds (.customMedia name query) [text]
  | directive (directive : Directive) (text : String) : Holds (.directive directive text) [text]

/-- The texts that a row of rules holds. -/
inductive Rule.HoldAll : List Rule → List String → Prop
  | nil : HoldAll [] []
  | cons {rule : Rule} {rules : List Rule} {texts others : List String} (h : Holds rule texts)
    (behind : HoldAll rules others) : HoldAll (rule :: rules) (texts ++ others)

end

theorem Rule.HoldAll.append {rules more : List Rule} {texts others : List String}
    (h : HoldAll rules texts) (h' : HoldAll more others) :
    HoldAll (rules ++ more) (texts ++ others) := by
  induction rules generalizing texts with
  | nil =>
    cases h
    exact h'
  | cons rule rules ih =>
    cases h with
    | cons hrule behind =>
      rw [List.append_assoc]
      exact .cons hrule (ih behind)

theorem Rule.Holds.all {rule : Rule} {texts : List String} (h : Holds rule texts) :
    HoldAll [rule] texts := by
  rw [← List.append_nil texts]
  exact .cons h .nil

/-- The texts that a row of entries holds. -/
def HoldEach {ε : Type} (textsOf : ε → List String) (entries : List ε) (texts : List String) : Prop :=
  entries.flatMap textsOf = texts

theorem HoldEach.append {ε : Type} {textsOf : ε → List String} {entries more : List ε}
    {texts others : List String} (h : HoldEach textsOf entries texts)
    (h' : HoldEach textsOf more others) : HoldEach textsOf (entries ++ more) (texts ++ others) := by
  rw [HoldEach, List.flatMap_append, h, h']

/-! ## Readers that quote a source -/

namespace Reading

variable {α β γ : Type} {source ts mid us : List Token} {holds : α → List String → Prop}
  {holds' : β → List String → Prop}

/-- What a reader gives holds the texts of passages that stand in a source from the tokens `ts` to the
tokens `us`. -/
def Quotes (m : Reading α) (source ts us : List Token) (holds : α → List String → Prop) : Prop :=
  m.Ensures fun a => ∃ texts, holds a texts ∧ TextsAlong source ts texts us

theorem quotes_pure {a : α} (h : holds a []) (hus : us <:+ ts) :
    (pure a : Reading α).Quotes source ts us holds :=
  ensures_pure ⟨[], h, .nil hus⟩

theorem Quotes.of_suffix {m : Reading α} (h : m.Quotes source mid us holds) (hmid : mid <:+ ts) :
    m.Quotes source ts us holds := by
  rintro o a ha
  obtain ⟨texts, htexts, halong⟩ := h o a ha
  exact ⟨texts, htexts, halong.of_suffix hmid⟩

theorem Quotes.map {m : Reading α} {f : α → β} (h : m.Quotes source ts us holds)
    (hf : ∀ a texts, holds a texts → holds' (f a) texts) :
    (f <$> m).Quotes source ts us holds' :=
  Ensures.map h fun a ⟨texts, htexts, halong⟩ => ⟨texts, hf a texts htexts, halong⟩

/-- Whatever is read first, what is read behind it quotes the source. -/
theorem quotes_behind (m : Reading α) {f : α → Reading β}
    (h : ∀ a, (f a).Quotes source ts us holds') : (m >>= f).Quotes source ts us holds' :=
  (ensures_true m).bind fun a _ => h a

/-- Two readers, one behind the other, quote one text behind the other. -/
theorem Quotes.bind_map {m : Reading α} {more : Reading β} {f : α → β → γ}
    {both : γ → List String → Prop} (hm : m.Quotes source ts mid holds)
    (hmore : more.Quotes source mid us holds')
    (h : ∀ a b texts others, holds a texts → holds' b others → both (f a b) (texts ++ others)) :
    (m >>= fun a => f a <$> more).Quotes source ts us both := by
  refine Ensures.bind hm fun a ⟨texts, htexts, halong⟩ => Ensures.map hmore fun b hb => ?_
  obtain ⟨others, hothers, hbehind⟩ := hb
  exact ⟨texts ++ others, h a b texts others htexts hothers, halong.append hbehind⟩

/-- What a body holds, if it is there. -/
def IfFound (holds : α → List String → Prop) (found : Option α) (texts : List String) : Prop :=
  found.elim (texts = []) (holds · texts)

/-- A reader of a level quotes the source along the level, wherever it comes to that. -/
def QuotesLevel (m : Reading α) (source : List Token) (skipped : Option Skipped)
    (cs : List Component) (holds : α → List String → Prop) : Prop :=
  ∀ ts us, Reached source ts skipped cs us → Token.Ends us → m.Quotes source ts us holds

end Reading

theorem Body.quotes_read {α : Type} {source ts us : List Token} {body : Body}
    {holds : α → List String → Prop} {inside : Reading α} (construct : Construct)
    (h : body.Stands source ts us) (hinside : inside.QuotesLevel source none body.contents holds) :
    (body.read construct inside).Quotes source ts us (IfFound holds) := by
  cases h with
  | missing place hus => exact quotes_behind _ fun _ => quotes_pure rfl hus
  | block stop closed hinner hreached hlast hus =>
    rw [read_block]
    refine Ensures.bind (hinside _ _ hreached hlast) fun a ⟨texts, htexts, halong⟩ => ?_
    have found : ∃ found, IfFound holds (some a) found ∧ TextsAlong source ts found us := by
      refine ⟨texts, htexts, ?_⟩
      rw [← List.append_nil texts]
      exact (halong.of_suffix hinner).append (.nil hus)
    cases closed with
    | true => exact ensures_pure found
    | false => exact (ensures_true _).bind fun _ _ => ensures_pure found

/-- Comments hold no text. -/
theorem holdEach_comment_append {frames : List FrameEntry} {texts : List String}
    (h : HoldEach FrameEntry.texts frames texts) (comment : Option String) :
    HoldEach FrameEntry.texts ((comment.map FrameEntry.comment).toList ++ frames) texts := by
  cases comment with
  | none => exact h
  | some text => exact h

section

variable {source : List Token} (hscanned : ∀ t ∈ source, t.IsScanned)

include hscanned

/-! ## Declarations -/

/-- The value of a declaration is the text of a passage behind the colon. -/
theorem Declaration.textsAlong_value {cs : List Component} {rest : List Token} {d : Declaration}
    (h : ofComponents? cs = some d) (hsource : tokensOf cs ++ rest <:+ source)
    (hends : Token.Ends rest) : TextsAlong source (tokensOf cs ++ rest) [d.value] rest := by
  unfold ofComponents? at h
  dsimp only at h
  split at h
  · cases h
  · next c value hdrop =>
    split at h
    · next hproperty =>
      obtain rfl := Option.some.inj h
      simp only [Bool.and_eq_true] at hproperty
      obtain ⟨t, rfl, ht⟩ := exists_leaf_of_isLeaf hproperty.1.1
      have hcolon : t.kind.leadsText = true := by rw [ht]; rfl
      have htokens : tokensOf cs ++ rest =
          tokensOf (cs.takeWhile isPropertyPart) ++ t :: (tokensOf value ++ rest) := by
        have hcs := congrArg tokensOf (List.takeWhile_append_dropWhile (p := isPropertyPart) (l := cs))
        rw [hdrop, tokensOf_append, tokensOf_cons] at hcs
        rw [← hcs, tokens, List.append_assoc, List.append_assoc, List.singleton_append]
      rw [htokens] at hsource ⊢
      obtain ⟨front, hfront⟩ := hsource
      refine (textsAlong_trimmedText hscanned ?_ (Token.fresh_concat hcolon (front ++
        tokensOf (cs.takeWhile isPropertyPart))) hends).of_suffix ?_
      · rw [← hfront, List.append_assoc, List.append_assoc, List.singleton_append]
      · exact (List.suffix_cons t _).trans (List.suffix_append _ _)
    · cases h

theorem quotes_readChunk {cs : List Component} {rest : List Token}
    (hsource : tokensOf cs ++ rest <:+ source) (hends : Token.Ends rest) :
    (readChunk cs).Quotes source (tokensOf cs ++ rest) rest (HoldEach DeclarationEntry.texts) := by
  induction cs with
  | nil => exact quotes_pure rfl (List.suffix_append _ _)
  | cons c cs ih =>
    have hsuffix : tokensOf cs ++ rest <:+ tokensOf (c :: cs) ++ rest := by
      rw [tokensOf_cons, List.append_assoc]
      exact List.suffix_append _ _
    have behind := (ih (hsuffix.trans hsource)).of_suffix hsuffix
    unfold readChunk
    split
    · exact behind
    · split
      · refine quotes_behind _ fun comment => behind.map fun entries texts h => ?_
        cases comment with
        | none => exact h
        | some text => exact h
      · split
        · next d hd =>
          exact ensures_pure ⟨[d.value], rfl, Declaration.textsAlong_value hscanned hd hsource hends⟩
        · exact quotes_behind _ fun _ => quotes_pure rfl (List.suffix_append _ _)

theorem quotes_readChunks {cs : List Component} {rest : List Token}
    (hsource : tokensOf cs ++ rest <:+ source) (hends : Token.Ends rest) :
    (readDeclarations cs).Quotes source (tokensOf cs ++ rest) rest
      (HoldEach DeclarationEntry.texts) := by
  have key := splitOn_induction (p := isSemicolon) (motive := fun cs chunks =>
    tokensOf cs ++ rest <:+ source → (readChunks chunks).Quotes source (tokensOf cs ++ rest) rest
      (HoldEach DeclarationEntry.texts))
  refine key (fun cs _ hsource => ?_) (fun chunk c behind _ hc ih hsource => ?_) cs hsource
  · have hnone : (readChunks []).Quotes source rest rest (HoldEach DeclarationEntry.texts) :=
      quotes_pure rfl List.suffix_rfl
    exact (quotes_readChunk hscanned hsource hends).bind_map hnone fun _ _ _ _ h h' => h.append h'
  · obtain ⟨t, rfl, ht⟩ := exists_leaf_of_isLeaf hc
    have hkind : t.kind.endsText = true := by rw [ht]; rfl
    have htokens : tokensOf (chunk ++ .leaf t :: behind) ++ rest =
        tokensOf chunk ++ t :: (tokensOf behind ++ rest) := by simp [tokens]
    rw [htokens] at hsource ⊢
    have hbehind := ih (((List.suffix_cons t _).trans (List.suffix_append _ _)).trans hsource)
    exact (quotes_readChunk hscanned hsource (Token.ends_cons hkind _)).bind_map
      (hbehind.of_suffix (List.suffix_cons t _)) fun _ _ _ _ h h' => h.append h'

theorem quotes_readDeclarations (skipped : Option Skipped) (cs : List Component) :
    (readDeclarations cs).QuotesLevel source skipped cs (HoldEach DeclarationEntry.texts) := by
  intro ts us h hus
  have hsource := h.suffix_source
  obtain @⟨front, lead, behind, _, _, _, -, -, haligned, -⟩ := h
  rw [haligned.eq_append] at hsource ⊢
  exact (quotes_readChunks hscanned ((List.suffix_append lead _).trans hsource) hus).of_suffix
    (List.suffix_append lead _)

/-- The declarations of a body. -/
theorem Body.quotes_readDeclarations {ts us : List Token} {body : Body} (construct : Construct)
    (h : body.Stands source ts us) : (body.read construct (readDeclarations body.contents)).Quotes
      source ts us (IfFound (HoldEach DeclarationEntry.texts)) :=
  body.quotes_read construct h (Css.quotes_readDeclarations hscanned none body.contents)

/-! ## Frames -/

/-- A frame holds its moments and what its declarations hold. -/
theorem quotes_readFrame {ts mid us : List Token} {moments : List String} {body : Body}
    (hmoments : TextsAlong source ts moments mid) (h : body.Stands source mid us) :
    (readFrame moments body).Quotes source ts us fun f texts => (FrameEntry.frame f).texts = texts := by
  refine Ensures.bind (body.quotes_readDeclarations hscanned .plain h)
    fun found ⟨texts, htexts, halong⟩ => ensures_pure ⟨moments ++ texts, ?_, hmoments.append halong⟩
  cases found with
  | none =>
    obtain rfl : texts = [] := htexts
    rfl
  | some declarations =>
    obtain rfl : declarations.flatMap DeclarationEntry.texts = texts := htexts
    rfl

theorem quotes_readFrames (stop : Location) (skipped : Option Skipped) (cs : List Component) :
    (readFrames stop skipped cs).QuotesLevel source skipped cs (HoldEach FrameEntry.texts) := by
  fun_induction readFrames stop skipped cs with
  | case1 =>
    intro ts us h hus
    exact quotes_pure rfl h.suffix
  | case2 skipped c cs hgap ih =>
    intro ts us h hus
    have hleaf : ∃ t, c = .leaf t ∧ (t.isMargin = true ∨ t.kind.leadsText = true) := by
      rcases Bool.or_eq_true_iff.1 hgap with hspace | hsemicolon
      · obtain ⟨t, rfl, ht⟩ := exists_leaf_of_isLeaf hspace
        exact ⟨t, rfl, .inl (Token.isMargin_of_whiteSpace ht)⟩
      · obtain ⟨t, rfl, ht⟩ := exists_leaf_of_isLeaf hsemicolon
        exact ⟨t, rfl, .inr (by rw [ht]; rfl)⟩
    obtain ⟨t, rfl, ht⟩ := hleaf
    obtain ⟨mid, hmid, hreached⟩ := h.exists_behind_leaf ht
    exact (ih mid us hreached hus).of_suffix ((List.suffix_cons t mid).trans hmid)
  | case3 skipped c cs hgap hcomment ih =>
    intro ts us h hus
    obtain ⟨t, rfl, ht⟩ := exists_leaf_of_isLeaf hcomment
    obtain ⟨mid, hmid, hreached⟩ := h.exists_behind_leaf (.inl (Token.isMargin_of_comment ht))
    have hbehind := (ih mid us hreached hus).of_suffix ((List.suffix_cons t mid).trans hmid)
    exact quotes_behind _ fun comment => hbehind.map fun _ _ hframes =>
      holdEach_comment_append hframes comment
  | case4 skipped c cs hgap hcomment moments hrefused ih =>
    intro ts us h hus
    obtain ⟨front, hfront, hend⟩ := h.exists_atEnd_dropWhile isEnd_of_mem_head?_fromCurly
    obtain ⟨mid, hmid, hreached⟩ := hend.reached_skipped
    exact quotes_behind _ fun _ => (ih mid us hreached hus).of_suffix (hmid.trans hfront)
  | case5 skipped c cs hgap hcomment moments htaken next ih =>
    intro ts us h hus
    rw [Bool.or_eq_true, not_or, Bool.not_eq_true, Bool.not_eq_true] at htaken hgap
    obtain ⟨mid, hmoments, hend⟩ := h.exists_atEnd_fromCurly hscanned hus htaken.1 hgap.2
    obtain ⟨behind, hbody, hreached⟩ := hend.exists_stands stop
    refine (quotes_readFrame hscanned hmoments hbody).bind_map (ih behind us hreached hus) ?_
    intro frame frames texts others hframe hframes
    rw [HoldEach, List.flatMap_cons, hframe, hframes]

end

/-! ## Statements -/

namespace AtRule

variable {keyword : Token} {cs rest : List Component}

/-- A group holds no other text than its prelude. -/
theorem texts_head_sublist {head : String → Group} (h : form? keyword cs = some (.group head))
    (text : String) : List.Sublist (head text).texts [text] := by
  unfold form? at h
  split at h
  case h_5 =>
    cases h
    exact List.nil_sublist _
  case h_9 =>
    obtain ⟨p, -, hp⟩ := Option.bind_eq_some_iff.1 h
    obtain ⟨rule, -, hrule⟩ := Option.map_eq_some_iff.1 hp
    cases hrule
  case h_10 =>
    obtain ⟨p, -, hp⟩ := Option.map_eq_some_iff.1 h
    cases hp
  all_goals
    cases h
  all_goals exact List.Sublist.refl _

theorem holds_of_customMedia? {text : String} {rule : Rule} (h : customMedia? text = some rule) :
    rule.Holds [text] := by
  have hrule := h
  unfold customMedia? at hrule
  dsimp only at hrule
  split at hrule
  · obtain rfl := Option.some.inj hrule
    exact .customMedia h
  · cases hrule

/-- A rule without a block holds the text of its statement. -/
theorem holds_of_form? {rule : Rule} (h : form? keyword cs = some (.whole rule rest)) :
    ∃ text, statement? cs = some (text, rest) ∧ rule.Holds [text] := by
  unfold form? at h
  split at h
  case h_9 =>
    obtain ⟨⟨text, rest'⟩, hstatement, hp⟩ := Option.bind_eq_some_iff.1 h
    obtain ⟨rule', hrule, heq⟩ := Option.map_eq_some_iff.1 hp
    cases heq
    exact ⟨text, hstatement, holds_of_customMedia? hrule⟩
  case h_10 =>
    obtain ⟨⟨text, rest'⟩, hstatement, heq⟩ := Option.map_eq_some_iff.1 h
    cases heq
    exact ⟨text, hstatement, .directive _ text⟩
  all_goals cases h

theorem afterEnd?_of_statement? {text : String} (h : statement? cs = some (text, rest)) :
    text = trimmedText (untilEnd cs) ∧ afterEnd? (fromEnd cs) = some rest := by
  unfold statement? at h
  dsimp only at h
  split at h
  · cases h
  · obtain ⟨rest', hrest, heq⟩ := Option.map_eq_some_iff.1 h
    obtain ⟨htext, rfl⟩ := Prod.mk.inj heq
    exact ⟨htext.symm, hrest⟩

end AtRule

namespace Statement

/-- The texts in front of the body of a statement. -/
def texts : Statement → List String
  | .group head _ => head.texts
  | .flat (.style selectors _) => selectors
  | .flat (.keyframes name _ _) => [name]
  | .flat (.page selectors _) => selectors
  | .flat _ => []

/-- How a statement that has been cut off a level stands in a source, which it leaves with the level
behind it: it gives no texts, or it is one text, or it has some texts and a body behind these. -/
inductive Stands (source ts us : List Token) : Cut → Prop
  | silent {statement : Flat} {next : Option Skipped} {rest : List Component} {mid : List Token}
    (hread : statement.read.Ensures fun rules => Rule.HoldAll rules []) (hmid : mid <:+ ts)
    (hrest : Reached source mid next rest us) : Stands source ts us ⟨.flat statement, next, rest⟩
  | whole {rule : Rule} {text : String} {next : Option Skipped} {rest : List Component}
    {mid : List Token} (hrule : rule.Holds [text]) (htext : TextsAlong source ts [text] mid)
    (hrest : Reached source mid next rest us) : Stands source ts us ⟨.flat (.whole rule), next, rest⟩
  | body {statement : Statement} {construct : Construct} {body : Body} {next : Option Skipped}
    {rest : List Component} {mid behind : List Token}
    (hbody : statement.body? = some (construct, body))
    (htexts : TextsAlong source ts statement.texts mid) (hstands : body.Stands source mid behind)
    (hrest : Reached source behind next rest us) : Stands source ts us ⟨statement, next, rest⟩

theorem Stands.of_suffix {source ts mid us : List Token} {cut : Cut} (h : Stands source mid us cut)
    (hmid : mid <:+ ts) : Stands source ts us cut := by
  cases h with
  | silent hread hsuffix hrest => exact .silent hread (hsuffix.trans hmid) hrest
  | whole hrule htext hrest => exact .whole hrule (htext.of_suffix hmid) hrest
  | body hbody htexts hstands hrest => exact .body hbody (htexts.of_suffix hmid) hstands hrest

section

variable {source front ts us : List Token} {stop : Location} {skipped : Option Skipped}
  {c : Component} {cs : List Component} (hscanned : ∀ t ∈ source, t.IsScanned)
  (hus : Token.Ends us)

include hscanned hus

theorem stands_cutStyle (h : Reached source ts skipped (c :: cs) us)
    (hsemicolon : c.isSemicolon = false) : Stands source ts us (cutStyle stop skipped c cs) := by
  unfold cutStyle
  dsimp only
  split
  · obtain ⟨front, hfront, hend⟩ := h.exists_atEnd_dropWhile isEnd_of_mem_head?_fromCurly
    obtain ⟨mid, hmid, hreached⟩ := hend.reached_skipped
    refine .silent ?_ (hmid.trans hfront) hreached
    exact (ensures_true _).bind fun _ _ => ensures_pure .nil
  · next htaken =>
    rw [Bool.or_eq_true, not_or, Bool.not_eq_true, Bool.not_eq_true] at htaken
    obtain ⟨mid, htexts, hend⟩ := h.exists_atEnd_fromCurly hscanned hus htaken.1 hsemicolon
    obtain ⟨behind, hbody, hreached⟩ := hend.exists_stands stop
    exact .body rfl htexts hbody hreached

/-- A statement behind an at-keyword. -/
theorem stands_cutForm {keyword : Token} {form : AtRule.Form} {place : Location}
    (hsource : source = front ++ ts) (haligned : Aligned ts cs us) (hfresh : Token.Fresh front)
    (hform : AtRule.form? keyword cs = some form) :
    Stands source ts us (cutForm stop place cs form) := by
  obtain ⟨mid, htext, hend⟩ := exists_atEnd_fromEnd hscanned hsource haligned hfresh hus
  obtain ⟨behind, hbody, hreached⟩ := hend.exists_stands stop
  cases form with
  | group head =>
    exact .body rfl (htext.sublist (AtRule.texts_head_sublist hform _)) hbody hreached
  | keyframes vendor =>
    dsimp only [cutForm, cutKeyframes]
    split
    · obtain ⟨last, hlast, hskipped⟩ := hend.reached_skipped
      refine .silent ?_ (hlast.trans htext.suffix) hskipped
      exact (ensures_true _).bind fun _ _ => ensures_pure .nil
    · exact .body rfl htext hbody hreached
  | page =>
    obtain ⟨mid, htexts, hend⟩ := exists_atEnd_fromCurly hscanned hsource haligned hfresh hus
    obtain ⟨behind, hbody, hreached⟩ := hend.exists_stands stop
    exact .body rfl (htexts.sublist List.filter_sublist) hbody hreached
  | fontFace => exact .body rfl (.nil htext.suffix) hbody hreached
  | whole rule rest =>
    obtain ⟨text, hstatement, hrule⟩ := AtRule.holds_of_form? hform
    obtain ⟨rfl, hrest⟩ := AtRule.afterEnd?_of_statement? hstatement
    obtain ⟨last, hlast, hreached⟩ := hend.exists_afterEnd hrest
    exact .whole hrule ((htext.append (.nil hlast)).sublist (List.Sublist.refl _)) hreached

/-- Every statement that is cut off a level stands in the source where the reader has come to. -/
theorem stands_cut (h : Reached source ts skipped (c :: cs) us) :
    Stands source ts us (cut stop skipped c cs) := by
  cases c with
  | block opener contents closer => exact stands_cutStyle hscanned hus h rfl
  | leaf t =>
    have token : ∀ {statement : Flat}, t.isMargin = true ∨ t.kind.leadsText = true →
        (statement.read.Ensures fun rules => Rule.HoldAll rules []) →
        Stands source ts us ⟨.flat statement, none, cs⟩ := by
      intro statement ht hread
      obtain ⟨mid, hmid, hreached⟩ := h.exists_behind_leaf ht
      exact .silent hread ((List.suffix_cons t mid).trans hmid) hreached
    unfold cut
    dsimp only
    split
    case h_1 hkind => exact token (.inl (Token.isMargin_of_whiteSpace hkind)) (ensures_pure .nil)
    case h_2 hkind | h_3 hkind | h_4 hkind =>
      exact token (.inr (by rw [hkind]; rfl)) (ensures_pure .nil)
    case h_5 hkind =>
      refine token (.inl (Token.isMargin_of_comment hkind)) ?_
      refine (ensures_true _).bind fun comment _ => ensures_pure ?_
      cases comment with
      | none => exact .nil
      | some text => exact (Rule.Holds.comment text).all
    case h_6 hkind =>
      refine token (.inr (by rw [hkind]; rfl)) ?_
      exact (ensures_true _).bind fun _ _ => ensures_pure .nil
    case h_7 hkind =>
      have hleads : t.kind.leadsText = true := by rw [hkind]; rfl
      have hsemicolon : (leaf t).isSemicolon = false := by rw [isSemicolon, isLeaf, hkind]; rfl
      rw [cutAtRule_eq]
      cases hform : AtRule.form? t cs with
      | none => exact stands_cutStyle hscanned hus h hsemicolon
      | some form =>
        obtain ⟨mid, hmid, haligned⟩ := h.exists_aligned_leaf
        obtain ⟨front, hfront⟩ := hmid.trans h.suffix_source
        rw [List.append_cons] at hfront
        have hstands : Stands source mid us (cutForm stop t.stop cs form) :=
          stands_cutForm hscanned hus hfront.symm haligned (Token.fresh_concat hleads front) hform
        exact hstands.of_suffix ((List.suffix_cons t mid).trans hmid)
    case h_8 _ hsemicolon _ _ _ _ _ =>
      exact stands_cutStyle hscanned hus h (beq_eq_false_iff_ne.2 hsemicolon)

end

/-- What is read of a body joins the texts in front of it, and without a body there is no rule. -/
theorem quotes_toList {α : Type} {source ts mid us : List Token} {m : Reading (Option α)}
    {holds : α → List String → Prop} {front : List String} {f : α → Rule}
    (hfront : TextsAlong source ts front mid) (hm : m.Quotes source mid us (IfFound holds))
    (hf : ∀ a texts, holds a texts → (f a).Holds (front ++ texts)) :
    (m >>= fun found => pure (found.map f).toList).Quotes source ts us Rule.HoldAll := by
  refine Ensures.bind hm fun found ⟨texts, htexts, halong⟩ => ensures_pure ?_
  cases found with
  | none => exact ⟨[], .nil, .nil (halong.suffix.trans hfront.suffix)⟩
  | some a => exact ⟨front ++ texts, (hf a texts htexts).all, hfront.append halong⟩

/-- A statement with a body gives a rule with the texts in front of the body and those inside. -/
theorem Flat.quotes_read {source ts mid us : List Token} (hscanned : ∀ t ∈ source, t.IsScanned)
    {statement : Flat} {construct : Construct} {body : Body}
    (hbody : (Statement.flat statement).body? = some (construct, body))
    (htexts : TextsAlong source ts (Statement.flat statement).texts mid)
    (hstands : body.Stands source mid us) :
    statement.read.Quotes source ts us Rule.HoldAll := by
  cases statement with
  | style selectors _ =>
    cases hbody
    refine Ensures.bind (body.quotes_readDeclarations hscanned .plain hstands)
      fun found ⟨texts, hfound, halong⟩ => ensures_pure ⟨selectors ++ texts, ?_, htexts.append halong⟩
    cases found with
    | none =>
      obtain rfl : texts = [] := hfound
      exact (Rule.Holds.style selectors []).all
    | some declarations =>
      obtain rfl : declarations.flatMap DeclarationEntry.texts = texts := hfound
      exact (Rule.Holds.style selectors declarations).all
  | keyframes name vendor _ =>
    cases hbody
    refine quotes_toList htexts (body.quotes_read .keyframes hstands
      (quotes_readFrames hscanned body.stop none body.contents)) ?_
    rintro frames _ rfl
    exact .keyframes name vendor frames
  | fontFace _ =>
    cases hbody
    refine quotes_toList htexts (body.quotes_readDeclarations hscanned .fontFace hstands) ?_
    rintro declarations _ rfl
    exact .fontFace declarations
  | page selectors _ =>
    cases hbody
    refine quotes_toList htexts (body.quotes_readDeclarations hscanned .page hstands) ?_
    rintro declarations _ rfl
    exact .page selectors declarations
  | _ => cases hbody

end Statement

/-! ## Style sheets -/

theorem quotes_readRules {source : List Token} (hscanned : ∀ t ∈ source, t.IsScanned)
    (stop : Location) (skipped : Option Skipped) (cs : List Component) :
    (readRules stop skipped cs).QuotesLevel source skipped cs Rule.HoldAll := by
  fun_induction readRules stop skipped cs with
  | case1 =>
    intro ts us h hus
    exact quotes_pure .nil h.suffix
  | case2 stop skipped c cs statement next rest hcut ih =>
    intro ts us h hus
    have hstands : Statement.Stands source ts us ⟨.flat statement, next, rest⟩ :=
      hcut ▸ Statement.stands_cut hscanned hus h
    have join : ∀ {mid}, statement.read.Quotes source ts mid Rule.HoldAll →
        Reached source mid next rest us → (statement.read >>= fun here =>
          (here ++ ·) <$> readRules stop next rest).Quotes source ts us Rule.HoldAll :=
      fun hread hrest => hread.bind_map (ih _ us hrest hus) fun _ _ _ _ h h' => h.append h'
    cases hstands with
    | silent hread hmid hrest =>
      exact join (fun o rules hrules => ⟨[], hread o rules hrules, .nil hmid⟩) hrest
    | whole hrule htext hrest => exact join (ensures_pure ⟨_, hrule.all, htext⟩) hrest
    | body hbody htexts hstands hrest =>
      exact join (Statement.Flat.quotes_read hscanned hbody htexts hstands) hrest
  | case3 stop skipped c cs head body next rest hcut ihInner ih =>
    intro ts us h hus
    have hstands : Statement.Stands source ts us ⟨.group head body, next, rest⟩ :=
      hcut ▸ Statement.stands_cut hscanned hus h
    cases hstands with
    | body hbody htexts hstands hrest =>
      cases hbody
      have hread := body.quotes_read head.construct hstands ihInner
      have hhere := Statement.quotes_toList htexts hread fun rules texts hrules =>
        Rule.Holds.group head hrules
      have hboth := hhere.bind_map (ih _ us hrest hus) fun _ _ _ _ h h' => h.append h'
      simpa only [bind_assoc, pure_bind] using hboth

namespace Stylesheet

/-- **Texts keep their tokens exactly if their passages survive.**  The selectors, preludes and values
of a style sheet are the texts of passages of its source, in their order.  Read alone, such a text has
just the tokens of its passage, less the comments that are left out, if and only if the passage survives:
trimming takes nothing of its tokens, the last of them does not hang on a line end, and no two of them are
joined where a comment is left out.  The name and the query of a custom media rule, which are parts of one
such text, have the tokens in front of some white space of the passage and those behind it if and only if
the text is cut there and these parts of the passage survive. -/
theorem kept_tokens_iff {css : String} {o : ReadOptions} {sheet : Stylesheet}
    (h : parse css o = .ok sheet) :
    ∃ ps, Passage.InOrder (Token.lex .start css.toList) (Token.lex .start css.toList) ps [] ∧
      Rule.HoldAll sheet.rules (ps.map Passage.text) ∧
      ∀ p ∈ ps, (Token.row p.text.toList = p.kept.map Token.unplaced ↔ p.Survives) ∧
        ∀ name query, AtRule.customMedia? p.text = some (.customMedia name query) →
          p.TakenApart name query := by
  have hreached : Reached (Token.lex .start css.toList) (Token.lex .start css.toList) none
      (ofText .start css.toList) [] :=
    reached_none (List.nil_append _).symm (aligned_ofText _ _) fun _ _ _ => Token.fresh_nil
  have hread : (read css).Quotes (Token.lex .start css.toList) (Token.lex .start css.toList) []
      Rule.HoldAll :=
    quotes_readRules (fun _ => Token.isScanned_of_mem_lex) _ none _ _ _ hreached Token.ends_nil
  have hrules : (read css o).2 = .ok sheet.rules := by
    unfold parse at h
    rcases hrun : read css o with ⟨notes, p | rules⟩
    · rw [hrun] at h
      cases h
    · rw [hrun] at h
      cases h
      rfl
  obtain ⟨texts, hholds, ps, hps, rfl⟩ := hread o sheet.rules hrules
  refine ⟨ps, hps, hholds, fun p hp => ?_⟩
  obtain ⟨here, rest, hstands⟩ := hps.standsAt_of_mem hp
  exact ⟨hstands.row_text_iff, fun _ _ => hstands.takenApart⟩

/-- An escape in front of a block, of which trimming takes the space, and a comment between two names,
which are one name without it.  Neither text has the tokens of its passage. -/
theorem kept_tokens_of_cut_escape : ∃ (sheet : Stylesheet) (ps : List Passage),
    parse ".a\\ \x7bb:c/**/d\x7d" ⟨none, false⟩ = .ok sheet ∧
      ps.map Passage.text = [".a\\", "cd"] ∧ Rule.HoldAll sheet.rules (ps.map Passage.text) ∧
      ∀ p ∈ ps, Token.row p.text.toList ≠ p.kept.map Token.unplaced ∧ ¬p.Survives := by
  have hparse : parse ".a\\ \x7bb:c/**/d\x7d" ⟨none, false⟩ =
      .ok ⟨[.style [".a\\"] [.declaration ⟨"b", "cd"⟩]], []⟩ := by decide +kernel
  obtain ⟨ps, hps, hholds, hiff⟩ := kept_tokens_iff hparse
  have htexts : ps.map Passage.text = [".a\\", "cd"] := by
    generalize ps.map Passage.text = texts at hholds
    cases hholds with
    | cons h behind =>
      cases h
      cases behind
      rfl
  refine ⟨_, ps, hparse, htexts, hholds, fun p hp => ?_⟩
  have hlost : Token.row p.text.toList ≠ p.kept.map Token.unplaced := by
    intro hrow
    obtain ⟨here, rest, hstands⟩ := hps.standsAt_of_mem hp
    have hsource : Token.row p.text.toList ⊆ Token.row ".a\\ \x7bb:c/**/d\x7d".toList := by
      rw [hrow]
      exact List.map_subset _ hstands.kept_subset
    have hmem : p.text ∈ [".a\\", "cd"] := htexts ▸ List.mem_map_of_mem hp
    -- each of the texts has a token that the source has not
    have hrows : ∀ text ∈ [".a\\", "cd"], (Token.row text.toList).all
        (Token.row ".a\\ \x7bb:c/**/d\x7d".toList).contains = false :=
      List.forall_mem_cons.2 ⟨by decide +kernel, List.forall_mem_singleton.2 (by decide +kernel)⟩
    have hall : (Token.row p.text.toList).all
        (Token.row ".a\\ \x7bb:c/**/d\x7d".toList).contains = true :=
      List.all_eq_true.2 fun t ht => List.contains_iff_mem.2 (hsource ht)
    rw [hrows p.text hmem] at hall
    cases hall
  exact ⟨hlost, fun h => hlost ((hiff p hp).1.2 h)⟩

end Stylesheet

end Restyle.Css
