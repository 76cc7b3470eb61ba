import Mathlib.Data.String.Basic
import Restyle.Proofs.Comments
import Restyle.Proofs.Letters
import Restyle.Proofs.Readers
import Restyle.Proofs.Rendering

/-!
# What is read is well formed

A tree is well formed if its texts are what their places ask for: selectors, preludes and values are
trimmed, names are there, and no comment says `*/` (`Rule.WellFormed`).  Every statement that is cut
off a level has well-formed texts (`Statement.wellFormed_cut`), those that are cut off behind a refused
block included, and a reader adds to them only what it finds in the body.  So every style sheet that is
read, strictly or silently, is well formed to any depth (`Stylesheet.wellFormed_of_parse`).

What a comment says is decided where the text is cut into tokens.  `Component.Clean` carries it through
the levels, and it holds of every part of a level.
-/

namespace Restyle.Css

open Component

/-! ## Well-formed trees -/

/-- A text without white space at either end. -/
structure IsTrimmed (text : String) : Prop where
  head : ∀ c ∈ text.toList.head?, Text.isBlank c = false
  last : ∀ c ∈ text.toList.getLast?, Text.isBlank c = false

/-- What stands in front of a block: trimmed texts, of which not all are empty. -/
structure IsSelectorList (texts : List String) : Prop where
  exists_ne : ∃ t ∈ texts, t ≠ ""
  trimmed : ∀ t ∈ texts, IsTrimmed t

/-- A vendor as it stands in front of a keyword: `-`, something without capitals, and `-`. -/
structure IsVendorMark (vendor : String) : Prop where
  head : vendor.toList.head? = some '-'
  last : vendor.toList.getLast? = some '-'
  size : 2 < vendor.utf8ByteSize
  not_upper : ∀ c ∈ vendor.toList, c.isUpper = false

structure Declaration.WellFormed (d : Declaration) : Prop where
  property_ne : d.property ≠ ""
  property_solid : ∀ c ∈ d.property.toList, Text.isBlank c = false
  value_trimmed : IsTrimmed d.value

def DeclarationEntry.WellFormed : DeclarationEntry → Prop
  | .declaration d => d.WellFormed
  | .comment text => IsCommentText text

def FrameEntry.WellFormed : FrameEntry → Prop
  | .frame f => IsSelectorList f.moments ∧ ∀ e ∈ f.declarations, e.WellFormed
  | .comment text => IsCommentText text

def Group.WellFormed : Group → Prop
  | .media query => IsTrimmed query
  | .supports condition => IsTrimmed condition
  | .document matcher vendor => IsTrimmed matcher ∧ ∀ v ∈ vendor, IsVendorMark v
  | .host => True

/-- The name of a custom media rule. -/
structure IsCustomName (name : String) : Prop where
  hyphens : ['-', '-'] <+: name.toList
  size : 3 ≤ name.utf8ByteSize
  solid : ∀ c ∈ name.toList, Text.isBlank c = false

/-- Rules of which all texts are what their places ask for, to any depth. -/
inductive Rule.WellFormed : Rule → Prop
  | style {selectors : List String} {declarations : List DeclarationEntry}
    (hselectors : IsSelectorList selectors) (h : ∀ e ∈ declarations, e.WellFormed) :
    WellFormed (.style selectors declarations)
  | comment {text : String} (h : IsCommentText text) : WellFormed (.comment text)
  | group {head : Group} {rules : List Rule} (hhead : head.WellFormed)
    (h : ∀ r ∈ rules, WellFormed r) : WellFormed (.group head rules)
  | keyframes {name : String} {vendor : Option String} {frames : List FrameEntry}
    (hne : name ≠ "") (htrimmed : IsTrimmed name) (hvendor : ∀ v ∈ vendor, IsVendorMark v)
    (h : ∀ f ∈ frames, f.WellFormed) : WellFormed (.keyframes name vendor frames)
  | fontFace {declarations : List DeclarationEntry} (h : ∀ e ∈ declarations, e.WellFormed) :
    WellFormed (.fontFace declarations)
  | page {selectors : List String} {declarations : List DeclarationEntry}
    (hselectors : ∀ s ∈ selectors, s ≠ "" ∧ IsTrimmed s) (h : ∀ e ∈ declarations, e.WellFormed) :
    WellFormed (.page selectors declarations)
  | customMedia {name query : String} (hname : IsCustomName name) (hne : query ≠ "")
    (htrimmed : IsTrimmed query) : WellFormed (.customMedia name query)
  | directive {directive : Directive} {text : String} (hne : text ≠ "") (htrimmed : IsTrimmed text) :
    WellFormed (.directive directive text)

/-! ## Trimmed texts -/

theorem isTrimmed_trim (cs : List Char) : IsTrimmed (String.ofList (Text.trim cs)) := by
  constructor <;> rw [String.toList_ofList]
  · exact Text.head?_trim cs
  · exact Text.getLast?_trim cs

theorem length_le_utf8ByteSize (cs : List Char) :
    cs.length ≤ (String.ofList cs).utf8ByteSize := by
  rw [String.utf8ByteSize_ofList]
  induction cs with
  | nil => exact Nat.zero_le _
  | cons c cs ih =>
    rw [String.utf8Len_cons, List.length_cons]
    exact Nat.add_le_add ih c.utf8Size_pos

theorem isTrimmed_trimmedText (cs : List Component) : IsTrimmed (trimmedText cs) :=
  isTrimmed_trim _

theorem isTrimmed_of_mem_selectorsOf {skipped : Option Skipped} {cs : List Component} {s : String}
    (h : s ∈ selectorsOf skipped cs) : IsTrimmed s := by
  unfold selectorsOf at h
  dsimp only at h
  split at h
  · cases h
  · rcases List.mem_cons.1 h with rfl | h
    · exact isTrimmed_trim _
    · obtain ⟨chunk, -, rfl⟩ := List.mem_map.1 h
      exact isTrimmed_trim _

theorem isSelectorList_selectorsOf {skipped : Option Skipped} {cs : List Component}
    (h : (selectorsOf skipped cs).all (· == "") = false) :
    IsSelectorList (selectorsOf skipped cs) := by
  refine ⟨?_, fun t ht => isTrimmed_of_mem_selectorsOf ht⟩
  obtain ⟨t, ht, hne⟩ := List.all_eq_false.1 h
  exact ⟨t, ht, fun heq => hne (beq_iff_eq.2 heq)⟩

/-! ## Levels with clean comments -/

namespace Component

/-- No comment among the components, at any depth, says `*/`. -/
def Clean (cs : List Component) : Prop :=
  ∀ t ∈ tokensOf cs, t.kind = .comment → ¬Token.commentEnd <:+: Token.commentBody t.text

theorem mem_tokensOf {cs : List Component} {t : Token} :
    t ∈ tokensOf cs ↔ ∃ c ∈ cs, t ∈ c.tokens := by
  induction cs with
  | nil => simp
  | cons c cs ih => simp [ih]

theorem clean_nil : Clean [] := nofun

theorem Clean.of_subset {cs ds : List Component} (h : Clean cs) (hsubset : ds ⊆ cs) : Clean ds := by
  intro t ht
  obtain ⟨c, hc, htc⟩ := mem_tokensOf.1 ht
  exact h t (mem_tokensOf.2 ⟨c, hsubset hc, htc⟩)

theorem Clean.contents {opener : Token} {contents cs : List Component} {closer : Option Token}
    (h : Clean (.block opener contents closer :: cs)) : Clean contents := by
  intro t ht
  refine h t (mem_tokensOf.2 ⟨_, List.mem_cons_self, ?_⟩)
  rw [tokens]
  exact List.mem_append_left _ (List.mem_cons_of_mem _ ht)

theorem Clean.leaf {t : Token} {cs : List Component} (h : Clean (.leaf t :: cs))
    (hkind : t.kind = .comment) : ¬Token.commentEnd <:+: Token.commentBody t.text :=
  h t (mem_tokensOf.2 ⟨_, List.mem_cons_self, by simp [tokens]⟩) hkind

theorem Clean.isComment {c : Component} {cs : List Component} (h : Clean (c :: cs))
    (hc : c.isComment = true) : ¬Token.commentEnd <:+: Token.commentBody c.text := by
  cases c with
  | leaf t =>
    have hbody := h.leaf (beq_iff_eq.1 hc)
    simpa [text, tokens] using hbody
  | block => cases hc

theorem clean_ofText (loc : Location) (cs : List Char) : Clean (ofText loc cs) := by
  intro t ht
  rw [ofText, tokens_ofTokens] at ht
  exact Token.not_commentEnd_infix_commentBody ht

theorem subset_of_mem_splitOn {p : Component → Bool} {cs chunk : List Component}
    (h : chunk ∈ splitOn p cs) : chunk ⊆ cs := by
  induction cs generalizing chunk with
  | nil =>
    obtain rfl := List.mem_singleton.1 h
    exact List.Subset.refl _
  | cons c cs ih =>
    rw [splitOn] at h
    split at h
    · rcases List.mem_cons.1 h with rfl | h
      · exact List.nil_subset _
      · exact List.subset_cons_of_subset c (ih h)
    · split at h
      · obtain rfl := List.mem_singleton.1 h
        exact List.cons_subset_cons c (List.nil_subset _)
      · next d ds hsplit =>
        rcases List.mem_cons.1 h with rfl | h
        · exact List.cons_subset_cons c (ih (hsplit ▸ List.mem_cons_self))
        · exact List.subset_cons_of_subset c (ih (hsplit ▸ List.mem_cons_of_mem d h))

end Component

theorem Body.clean_contents_ofLevel {stop : Location} {cs : List Component} (h : Clean cs) :
    Clean (Body.ofLevel stop cs).1.contents := by
  rcases cs with _ | ⟨_ | ⟨opener, contents, closer⟩, cs⟩
  · exact clean_nil
  · exact clean_nil
  · by_cases hopener : opener.kind = .opening .curly
    · simpa [Body.ofLevel, hopener, Body.contents] using h.contents
    · simpa [Body.ofLevel, hopener, Body.contents] using clean_nil

/-! ## What a computation gives -/

namespace Reading

variable {α β : Type} {m : Reading α} {P : α → Prop}

/-- Whatever a computation gives, silent or strict, satisfies `P`. -/
def Ensures (m : Reading α) (P : α → Prop) : Prop :=
  ∀ o a, (m o).2 = .ok a → P a

theorem ensures_pure {a : α} (h : P a) : Ensures (pure a) P := by
  rintro o b ⟨⟩
  exact h

theorem ensures_true (m : Reading α) : Ensures m fun _ => True :=
  fun _ _ _ => trivial

theorem Ensures.bind {f : α → Reading β} {Q : β → Prop} (hm : Ensures m P)
    (hf : ∀ a, P a → Ensures (f a) Q) : Ensures (m >>= f) Q := by
  intro o b hb
  rw [bind_run] at hb
  rcases hrun : m o with ⟨notes, p | a⟩
  · rw [hrun] at hb
    cases hb
  · rw [hrun] at hb
    exact hf a (hm o a (by rw [hrun])) o b hb

theorem Ensures.map {f : α → β} {Q : β → Prop} (hm : Ensures m P) (hf : ∀ a, P a → Q (f a)) :
    Ensures (f <$> m) Q := by
  rw [map_eq_pure_bind]
  exact hm.bind fun a ha => ensures_pure (hf a ha)

/-- What is read in front of other entries joins them. -/
theorem Ensures.map_append {ε : Type} {Q : ε → Prop} {m : Reading (List ε)} {here : List ε}
    (hhere : ∀ e ∈ here, Q e) (hm : Ensures m fun es => ∀ e ∈ es, Q e) :
    Ensures ((here ++ ·) <$> m) fun es => ∀ e ∈ es, Q e :=
  hm.map fun _ hes => List.forall_mem_append.2 ⟨hhere, hes⟩

end Reading

open Reading

theorem forall_mem_toList_map {α β : Type} {found : Option α} {f : α → β} {P : α → Prop}
    {Q : β → Prop} (h : ∀ a ∈ found, P a) (hf : ∀ a, P a → Q (f a)) :
    ∀ b ∈ (found.map f).toList, Q b := by
  intro b hb
  obtain ⟨a, ha, rfl⟩ := Option.map_eq_some_iff.1 (Option.mem_toList.1 hb)
  exact hf a (h a ha)

theorem ensures_readComment {body : List Char} (h : ¬Token.commentEnd <:+: body) (text : List Char)
    (place : Location) :
    Ensures (readComment body text place) fun found => ∀ t ∈ found, IsCommentText t := by
  unfold readComment
  split
  · refine ensures_pure ?_
    rintro t ⟨⟩
    rwa [IsCommentText, String.toList_ofList]
  · exact (ensures_true _).bind fun _ _ => ensures_pure nofun

theorem Body.ensures_read {α : Type} {construct : Construct} {body : Body} {inside : Reading α}
    {P : α → Prop} (h : Ensures inside P) :
    Ensures (body.read construct inside) fun found => ∀ a ∈ found, P a := by
  cases body with
  | missing place => exact (ensures_true _).bind fun _ _ => ensures_pure nofun
  | block contents stop closed =>
    rw [read_block]
    refine h.bind fun a ha => ?_
    have found : Ensures (pure (some a)) fun found => ∀ a ∈ found, P a := by
      refine ensures_pure ?_
      rintro b ⟨⟩
      exact ha
    cases closed with
    | true => exact found
    | false => exact (ensures_true _).bind fun _ _ => found

/-! ## Declarations and frames -/

theorem Declaration.wellFormed_ofComponents? {cs : List Component} {d : Declaration}
    (h : ofComponents? cs = some d) : d.WellFormed := by
  unfold ofComponents? at h
  dsimp only at h
  split at h
  · cases h
  · split at h
    · next hproperty =>
      obtain rfl := Option.some.inj h
      simp only [Bool.and_eq_true, Bool.not_eq_true', List.any_eq_false, Bool.not_eq_true] at hproperty
      obtain ⟨⟨-, hne⟩, hsolid⟩ := hproperty
      refine ⟨fun hempty => ?_, ?_, isTrimmed_trimmedText _⟩
      · rw [String.ofList_eq_empty_iff.1 hempty] at hne
        cases hne
      · rw [String.toList_ofList]
        exact hsolid
    · cases h

theorem ensures_readChunk {cs : List Component} (h : Clean cs) :
    Ensures (readChunk cs) fun entries => ∀ e ∈ entries, e.WellFormed := by
  induction cs with
  | nil => exact ensures_pure nofun
  | cons c cs ih =>
    have behind := ih (h.of_subset (List.subset_cons_self c cs))
    unfold readChunk
    split
    · exact behind
    · split
      · next hc =>
        exact (ensures_readComment (h.isComment hc) _ _).bind fun _ hfound =>
          behind.map_append (forall_mem_toList_map hfound fun _ htext => htext)
      · split
        · next d hd =>
          exact ensures_pure (List.forall_mem_singleton.2 (Declaration.wellFormed_ofComponents? hd))
        · exact (ensures_true _).bind fun _ _ => ensures_pure nofun

theorem ensures_readChunks {chunks : List (List Component)} (h : ∀ chunk ∈ chunks, Clean chunk) :
    Ensures (readChunks chunks) fun entries => ∀ e ∈ entries, e.WellFormed := by
  induction chunks with
  | nil => exact ensures_pure nofun
  | cons chunk chunks ih =>
    obtain ⟨hchunk, hchunks⟩ := List.forall_mem_cons.1 h
    exact (ensures_readChunk hchunk).bind fun _ hentries => (ih hchunks).map_append hentries

theorem ensures_readDeclarations {cs : List Component} (h : Clean cs) :
    Ensures (readDeclarations cs) fun entries => ∀ e ∈ entries, e.WellFormed :=
  ensures_readChunks fun _ hchunk => h.of_subset (subset_of_mem_splitOn hchunk)

/-- The declarations of a body, and none where it is missing. -/
theorem forall_mem_getD {α : Type} {P : α → Prop} {found : Option (List α)}
    (h : ∀ es ∈ found, ∀ e ∈ es, P e) : ∀ e ∈ found.getD [], P e := by
  cases found with
  | none => exact nofun
  | some es => exact h es rfl

theorem ensures_readFrame {moments : List String} {body : Body} (hmoments : IsSelectorList moments)
    (h : Clean body.contents) :
    Ensures (readFrame moments body) fun f => FrameEntry.WellFormed (.frame f) :=
  (Body.ensures_read (ensures_readDeclarations h)).bind fun _ hfound =>
    ensures_pure ⟨hmoments, forall_mem_getD hfound⟩

theorem fromCurly_suffix (cs : List Component) : fromCurly cs <:+ cs :=
  List.dropWhile_suffix _

theorem ensures_readFrames {stop : Location} {skipped : Option Skipped} {cs : List Component}
    (h : Clean cs) :
    Ensures (readFrames stop skipped cs) fun frames => ∀ f ∈ frames, f.WellFormed := by
  fun_induction readFrames stop skipped cs with
  | case1 => exact ensures_pure (List.forall_mem_nil _)
  | case2 skipped c cs hgap ih => exact ih (h.of_subset (List.subset_cons_self c cs))
  | case3 skipped c cs hgap hc ih =>
    exact (ensures_readComment (h.isComment hc) _ _).bind fun _ hfound =>
      (ih (h.of_subset (List.subset_cons_self c cs))).map_append
        (forall_mem_toList_map hfound fun _ htext => htext)
  | case4 skipped c cs hgap hc moments hrefused ih =>
    exact (ensures_true _).bind fun _ _ =>
      ih (h.of_subset ((Skipped.ofLevel_suffix _).trans (fromCurly_suffix _)).subset)
  | case5 skipped c cs hgap hc moments htaken next ih =>
    have hlevel : Clean (fromCurly (c :: cs)) := h.of_subset (fromCurly_suffix _).subset
    have hmoments : IsSelectorList moments := by
      rw [Bool.or_eq_true, not_or, Bool.not_eq_true, Bool.not_eq_true] at htaken
      exact isSelectorList_selectorsOf htaken.2
    exact (ensures_readFrame hmoments (Body.clean_contents_ofLevel hlevel)).bind fun _ hframe =>
      (ih (hlevel.of_subset (Body.ofLevel_suffix stop _).subset)).map fun _ hframes =>
        List.forall_mem_cons.2 ⟨hframe, hframes⟩

/-! ## Statements -/

namespace AtRule

/-- The vendor of a keyword in small letters. -/
theorem isVendorMark_of_vendor? {name keyword : List Char} {vendor : Option String}
    (hkeyword : ∀ c ∈ keyword, c.isUpper = false) (h : vendor? name keyword = some vendor) :
    ∀ v ∈ vendor, IsVendorMark v := by
  unfold vendor? at h
  dsimp only at h
  split at h
  · split at h
    · cases h
      exact nofun
    · split at h
      · next hmark =>
        cases h
        rintro v ⟨⟩
        simp only [Bool.and_eq_true, decide_eq_true_eq, beq_iff_eq] at hmark
        obtain ⟨⟨hlength, hhead⟩, hlast⟩ := hmark
        refine ⟨?_, ?_, Nat.lt_of_lt_of_le hlength (length_le_utf8ByteSize _), ?_⟩
        · rwa [String.toList_ofList]
        · rwa [String.toList_ofList]
        · rw [String.toList_ofList]
          exact fun c hc => hkeyword c (List.mem_of_mem_take hc)
      · cases h
  · cases h

theorem vendor?_of_ofKeyword? {keyword : List Char} {rule : AtRule} {vendor : Option String}
    (h : ofKeyword? keyword = some rule) (hrule : rule = .keyframes vendor ∨ rule = .document vendor) :
    ∃ name, vendor? name keyword = some vendor := by
  unfold ofKeyword? at h
  split at h
  · next found hfound =>
    cases h
    rcases hrule with heq | heq <;> cases heq
    exact ⟨_, hfound⟩
  · next found _ hfound =>
    cases h
    rcases hrule with heq | heq <;> cases heq
    exact ⟨_, hfound⟩
  · split at h <;> cases h <;> rcases hrule with heq | heq <;> cases heq

/-- What a form makes of trimmed texts is well formed. -/
def Form.WellFormed : Form → Prop
  | .group head => ∀ text, IsTrimmed text → (head text).WellFormed
  | .keyframes vendor => ∀ v ∈ vendor, IsVendorMark v
  | .page => True
  | .fontFace => True
  | .whole rule _ => rule.WellFormed

theorem wellFormed_customMedia? {text : String} {rule : Rule} (h : customMedia? text = some rule) :
    rule.WellFormed := by
  unfold customMedia? at h
  dsimp only at h
  split at h
  · next hname =>
    cases h
    simp only [Bool.and_eq_true, List.isPrefixOf_iff_prefix, decide_eq_true_eq,
      Bool.not_eq_true'] at hname
    obtain ⟨⟨hhyphens, hlength⟩, hquery⟩ := hname
    refine .customMedia ⟨?_, Nat.le_trans hlength (length_le_utf8ByteSize _), ?_⟩ ?_
      (isTrimmed_trim _)
    · rwa [String.toList_ofList]
    · rw [String.toList_ofList]
      exact fun c hc => by simpa using List.mem_takeWhile_imp hc
    · intro hempty
      rw [String.ofList_eq_empty_iff.1 hempty] at hquery
      cases hquery
  · cases h

theorem text_of_statement? {cs rest : List Component} {text : String}
    (h : statement? cs = some (text, rest)) : text ≠ "" ∧ IsTrimmed text := by
  unfold statement? at h
  dsimp only at h
  split at h
  · cases h
  · next hne =>
    obtain ⟨rest', -, heq⟩ := Option.map_eq_some_iff.1 h
    cases heq
    exact ⟨fun hempty => hne (beq_iff_eq.2 hempty), isTrimmed_trimmedText _⟩

theorem isUpper_keyword (keyword : Token) : ∀ c ∈ keyword.keyword, c.isUpper = false := by
  intro c hc
  obtain ⟨d, -, rfl⟩ := List.mem_map.1 hc
  exact Text.isUpper_toLower d

theorem wellFormed_form? {keyword : Token} {cs : List Component} {form : Form}
    (h : form? keyword cs = some form) : form.WellFormed := by
  have hvendor : ∀ {rule vendor}, ofKeyword? keyword.keyword = some rule →
      (rule = .keyframes vendor ∨ rule = .document vendor) → ∀ v ∈ vendor, IsVendorMark v := by
    intro rule vendor hkeyword hrule
    obtain ⟨name, hname⟩ := vendor?_of_ofKeyword? hkeyword hrule
    exact isVendorMark_of_vendor? (isUpper_keyword keyword) hname
  unfold form? at h
  split at h
  · cases h
  · cases h
    exact fun _ htext => htext
  · cases h
    exact fun _ htext => htext
  · next vendor hkeyword =>
    cases h
    exact fun _ htext => ⟨htext, hvendor hkeyword (.inr rfl)⟩
  · cases h
    exact fun _ _ => trivial
  · next vendor hkeyword =>
    cases h
    exact hvendor hkeyword (.inl rfl)
  · cases h
    trivial
  · cases h
    trivial
  · obtain ⟨p, -, hquery⟩ := Option.bind_eq_some_iff.1 h
    obtain ⟨rule, hrule, rfl⟩ := Option.map_eq_some_iff.1 hquery
    exact wellFormed_customMedia? hrule
  · obtain ⟨p, hstatement, rfl⟩ := Option.map_eq_some_iff.1 h
    obtain ⟨hne, htrimmed⟩ := text_of_statement? hstatement
    exact .directive hne htrimmed

end AtRule

namespace Statement

/-- A statement with well-formed texts in front of its body and clean comments in it. -/
def Flat.WellFormed : Flat → Prop
  | .gap => True
  | .comment body _ _ => ¬Token.commentEnd <:+: body
  | .strayBracket _ => True
  | .refused _ _ => True
  | .style selectors body => IsSelectorList selectors ∧ Clean body.contents
  | .keyframes name vendor body =>
    name ≠ "" ∧ IsTrimmed name ∧ (∀ v ∈ vendor, IsVendorMark v) ∧ Clean body.contents
  | .fontFace body => Clean body.contents
  | .page selectors body => (∀ s ∈ selectors, s ≠ "" ∧ IsTrimmed s) ∧ Clean body.contents
  | .whole rule => rule.WellFormed

def WellFormed : Statement → Prop
  | .group head body => head.WellFormed ∧ Clean body.contents
  | .flat statement => statement.WellFormed

section

variable {stop : Location} {skipped : Option Skipped} {c : Component} {cs : List Component}

theorem wellFormed_cutStyle (h : Clean (c :: cs)) :
    (cutStyle stop skipped c cs).statement.WellFormed := by
  unfold cutStyle
  dsimp only
  split
  · trivial
  · next htaken =>
    rw [Bool.or_eq_true, not_or, Bool.not_eq_true, Bool.not_eq_true] at htaken
    exact ⟨isSelectorList_selectorsOf htaken.2,
      Body.clean_contents_ofLevel (h.of_subset (fromCurly_suffix _).subset)⟩

theorem wellFormed_cutForm {place : Location} {form : AtRule.Form} (h : Clean cs)
    (hform : form.WellFormed) : (cutForm stop place cs form).statement.WellFormed := by
  have hend : Clean (Body.ofLevel stop (fromEnd cs)).1.contents :=
    Body.clean_contents_ofLevel (h.of_subset (List.dropWhile_suffix _).subset)
  cases form with
  | group head => exact ⟨hform _ (isTrimmed_trimmedText _), hend⟩
  | keyframes vendor =>
    dsimp only [cutForm, cutKeyframes]
    split
    · trivial
    · next hne =>
      exact ⟨fun hempty => hne (beq_iff_eq.2 hempty), isTrimmed_trimmedText _, hform, hend⟩
  | page =>
    refine ⟨fun s hs => ?_, Body.clean_contents_ofLevel (h.of_subset (fromCurly_suffix _).subset)⟩
    obtain ⟨hmem, hne⟩ := List.mem_filter.1 hs
    exact ⟨fun hempty => bne_iff_ne.1 hne hempty, isTrimmed_of_mem_selectorsOf hmem⟩
  | fontFace => exact hend
  | whole rule rest => exact hform

theorem wellFormed_cutAtRule {keyword : Token} (h : Clean (c :: cs)) :
    (cutAtRule stop skipped keyword c cs).statement.WellFormed := by
  rw [cutAtRule_eq]
  cases hform : AtRule.form? keyword cs with
  | none => exact wellFormed_cutStyle h
  | some form =>
    exact wellFormed_cutForm (h.of_subset (List.subset_cons_self c cs)) (AtRule.wellFormed_form? hform)

/-- Every statement that is cut off a level has well-formed texts. -/
theorem wellFormed_cut (stop : Location) (skipped : Option Skipped) (h : Clean (c :: cs)) :
    (cut stop skipped c cs).statement.WellFormed := by
  unfold cut
  split
  · exact wellFormed_cutStyle h
  · split
    case h_5 hcomment => exact h.leaf hcomment
    case h_7 => exact wellFormed_cutAtRule h
    case h_8 => exact wellFormed_cutStyle h
    all_goals trivial

end

theorem Flat.ensures_read {statement : Flat} (h : statement.WellFormed) :
    Ensures statement.read fun rules => ∀ r ∈ rules, r.WellFormed := by
  cases statement with
  | gap => exact ensures_pure nofun
  | comment body text place =>
    exact (ensures_readComment h _ _).bind fun _ hfound =>
      ensures_pure (forall_mem_toList_map hfound fun _ htext => .comment htext)
  | strayBracket place => exact (ensures_true _).bind fun _ _ => ensures_pure nofun
  | refused cause place => exact (ensures_true _).bind fun _ _ => ensures_pure nofun
  | style selectors body =>
    exact (Body.ensures_read (ensures_readDeclarations h.2)).bind fun _ hfound =>
      ensures_pure (List.forall_mem_singleton.2 (.style h.1 (forall_mem_getD hfound)))
  | keyframes name vendor body =>
    obtain ⟨hne, htrimmed, hvendor, hclean⟩ := h
    exact (Body.ensures_read (ensures_readFrames hclean)).bind fun _ hfound =>
      ensures_pure (forall_mem_toList_map hfound fun _ hframes =>
        .keyframes hne htrimmed hvendor hframes)
  | fontFace body =>
    exact (Body.ensures_read (ensures_readDeclarations h)).bind fun _ hfound =>
      ensures_pure (forall_mem_toList_map hfound fun _ hentries => .fontFace hentries)
  | page selectors body =>
    exact (Body.ensures_read (ensures_readDeclarations h.2)).bind fun _ hfound =>
      ensures_pure (forall_mem_toList_map hfound fun _ hentries => .page h.1 hentries)
  | whole rule => exact ensures_pure (List.forall_mem_singleton.2 h)

end Statement

/-! ## Style sheets -/

/-- The rules of a level are well formed if the comments on it are clean. -/
theorem ensures_readRules {stop : Location} {skipped : Option Skipped} {cs : List Component}
    (h : Clean cs) :
    Ensures (readRules stop skipped cs) fun rules => ∀ r ∈ rules, r.WellFormed := by
  fun_induction readRules stop skipped cs with
  | case1 => exact ensures_pure (List.forall_mem_nil _)
  | case2 stop skipped c cs statement next rest hcut ih =>
    have hstatement := Statement.wellFormed_cut stop skipped h
    have hrest := (Statement.rest_cut_suffix stop skipped c cs).subset
    rw [hcut] at hstatement hrest
    have behind := ih ((h.of_subset (List.subset_cons_self c cs)).of_subset hrest)
    exact (Statement.Flat.ensures_read hstatement).bind fun _ hhere => behind.map_append hhere
  | case3 stop skipped c cs head body next rest hcut ihInner ihRest =>
    have hstatement := Statement.wellFormed_cut stop skipped h
    have hrest := (Statement.rest_cut_suffix stop skipped c cs).subset
    rw [hcut] at hstatement hrest
    have behind := ihRest ((h.of_subset (List.subset_cons_self c cs)).of_subset hrest)
    exact (Body.ensures_read (ihInner hstatement.2)).bind fun _ hfound =>
      behind.map_append (forall_mem_toList_map hfound fun _ hrules => .group hstatement.1 hrules)

namespace Stylesheet

/-- **Every parsed tree is well formed.**  Whatever the text and in either mode, the rules of a style
sheet that is given back have well-formed texts, to any depth. -/
theorem wellFormed_of_parse {css : String} {o : ReadOptions} {sheet : Stylesheet}
    (h : parse css o = .ok sheet) : ∀ r ∈ sheet.rules, r.WellFormed := by
  have hread : Ensures (read css) fun rules => ∀ r ∈ rules, r.WellFormed :=
    ensures_readRules (clean_ofText .start css.toList)
  unfold parse at h
  rcases hrun : read css o with ⟨notes, p | rules⟩
  · rw [hrun] at h
    cases h
  · rw [hrun] at h
    cases h
    exact hread o rules (by rw [hrun])

/-- A rule behind a refused block, without an end and with a broken declaration. -/
theorem wellFormed_of_open_rule : ∃ sheet,
    parse "\x7b\x7d,r\x7bs t:u; v : w " ⟨none, true⟩ = .ok sheet ∧
      sheet.rules = [.style ["", "r"] [.declaration ⟨"v", "w"⟩]] ∧
      ∀ r ∈ sheet.rules, r.WellFormed := by
  have hrules : (parse "\x7b\x7d,r\x7bs t:u; v : w " ⟨none, true⟩).map (·.rules) =
      .ok [.style ["", "r"] [.declaration ⟨"v", "w"⟩]] := by decide +kernel
  rcases hparse : parse "\x7b\x7d,r\x7bs t:u; v : w " ⟨none, true⟩ with p | sheet
  · rw [hparse] at hrules
    cases hrules
  · rw [hparse] at hrules
    exact ⟨sheet, rfl, Except.ok.inj hrules, wellFormed_of_parse hparse⟩

end Stylesheet

end Restyle.Css
