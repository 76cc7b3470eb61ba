import Mathlib.Data.List.Forall2
import Mathlib.Data.List.TakeWhile
import Restyle.Css.Declaration
import Restyle.Proofs.Enclosed
import Restyle.Proofs.Levels

/-!
# Declaration blocks are rows of chunks

What a declaration block says can be told from its tokens and the brackets around each (`Nested`),
without a look at how they nest to components.  Semicolons outside of all brackets cut the tokens into
chunks, and each chunk is read by itself (`Chunk.Reads`): the comments in front, and then one declaration
or one problem.

`Spelled` ties the tokens of a row to its components.  It is kept by every cut that a reader makes, so
what is read off the components is what the chunks say (`readDeclarations_run`).
-/

namespace Restyle.Css

/-- A token with the brackets that are open around it, innermost first. -/
structure Nested where
  around : List Bracket
  token : Token
  deriving Repr, DecidableEq

namespace Nested

/-- Tokens with the brackets around them.  The brackets `bs` are open in front of the first. -/
def ofTokens (bs : List Bracket) : List Token → List Nested
  | [] => []
  | t :: ts => ⟨bs, t⟩ :: ofTokens (t.nest bs) ts

/-- Whether a token is of some kind and stands outside of all brackets. -/
def isTop (kind : Token.Kind) (n : Nested) : Bool :=
  n.around.isEmpty && n.token.kind == kind

/-- Whether a token may stand in a property: an identifier, white space, a star, or a token of a block in
square brackets. -/
def isPropertyPart (n : Nested) : Bool :=
  match n.around.getLast? with
  | none => n.token.kind == .ident || n.token.kind == .whiteSpace ||
      (n.token.kind == .delimiter && n.token.text == ['*']) || n.token.kind == .opening .square
  | some b => b == .square

def text (ns : List Nested) : List Char :=
  ns.flatMap (·.token.text)

/-- The text of a row of tokens without the comments outside of all brackets. -/
def plainText (ns : List Nested) : List Char :=
  text (ns.filter (!·.isTop .comment))

end Nested

/-- The chunks of a row of tokens: what stands between the semicolons outside of all brackets. -/
def chunksOf (ts : List Token) : List (List Nested) :=
  (Nested.ofTokens [] ts).splitOnP (Nested.isTop .semicolon)

namespace Chunk

/-- A row of tokens makes a declaration: what stands in front of its first colon outside of all brackets
is a property, which is not empty and has no white space in it, and the rest is the value. -/
structure Declares (ns : List Nested) (d : Declaration) : Prop where
  exists_colon : ∃ front colon value, ns = front ++ colon :: value ∧
    (∀ n ∈ front, n.isPropertyPart = true) ∧ colon.isTop .colon = true ∧
    d.property = String.ofList (Text.trim (Nested.text front)) ∧
    d.value = String.ofList (Text.trim (Nested.plainText value))
  property_ne : d.property ≠ ""
  property_solid : ∀ c ∈ d.property.toList, Text.isBlank c = false

/-- What a silent reader has to say of a chunk of a text with the given name: entries and problems. -/
inductive Reads (source : Option String) :
    List Nested → List DeclarationEntry → List Problem → Prop
  | nil : Reads source [] [] []
  | space {n : Nested} {ns : List Nested} {es : List DeclarationEntry} {ps : List Problem}
    (h : n.token.kind = .whiteSpace) (rest : Reads source ns es ps) : Reads source (n :: ns) es ps
  | comment {n : Nested} {ns : List Nested} {es : List DeclarationEntry} {ps : List Problem}
    (h : n.token.kind = .comment) (hends : Token.endsComment n.token.text = true)
    (rest : Reads source ns es ps) :
    Reads source (n :: ns) (.comment (String.ofList (Token.commentBody n.token.text)) :: es) ps
  | unclosed {n : Nested} {ns : List Nested} {es : List DeclarationEntry} {ps : List Problem}
    (h : n.token.kind = .comment) (hends : Token.endsComment n.token.text = false)
    (rest : Reads source ns es ps) :
    Reads source (n :: ns) es (⟨.unclosedComment, n.token.start, source⟩ :: ps)
  | declaration {n : Nested} {ns : List Nested} {d : Declaration} (hspace : n.token.kind ≠ .whiteSpace)
    (hcomment : n.token.kind ≠ .comment) (h : Declares (n :: ns) d) :
    Reads source (n :: ns) [.declaration d] []
  | malformed {n : Nested} {ns : List Nested} (hspace : n.token.kind ≠ .whiteSpace)
    (hcomment : n.token.kind ≠ .comment) (h : ∀ d, ¬Declares (n :: ns) d) :
    Reads source (n :: ns) [] [⟨.noProperty, n.token.start, source⟩]

end Chunk

/-! ## Tokens and components -/

/-- A row of tokens outside of all brackets and the components that it nests to. -/
inductive Spelled : List Nested → List Component → Prop
  | nil : Spelled [] []
  | leaf {t : Token} {ns : List Nested} {cs : List Component} (h : t.kind.opens? = none)
    (rest : Spelled ns cs) : Spelled (⟨[], t⟩ :: ns) (.leaf t :: cs)
  | block {t : Token} {b : Bracket} {inside ns : List Nested} {contents cs : List Component}
    {closer : Option Token} (h : t.kind.opens? = some b)
    (hinside : ∀ n ∈ inside, n.around.getLast? = some b)
    (htokens : inside.map Nested.token = Component.tokensOf contents ++ closer.toList)
    (rest : Spelled ns cs) :
    Spelled (⟨[], t⟩ :: (inside ++ ns)) (.block t contents closer :: cs)

/-- Around everything that a block encloses stands its bracket, and behind it nothing is open. -/
theorem Nested.ofTokens_enclosed (b : Bracket) (bs : List Bracket) (ts : List Token) :
    ∃ inside, ofTokens (bs ++ [b]) ts = inside ++ ofTokens [] (Token.enclosed b bs ts).rest ∧
      inside.map token = (Token.enclosed b bs ts).inside ++ (Token.enclosed b bs ts).closer.toList ∧
      ∀ n ∈ inside, n.around.getLast? = some b := by
  induction ts generalizing bs with
  | nil => exact ⟨[], rfl, rfl, nofun⟩
  | cons t ts ih =>
    by_cases hcloser : bs = [] ∧ t.kind.closes? = some b
    · obtain ⟨rfl, hcloses⟩ := hcloser
      rw [Token.enclosed_closer hcloses, List.nil_append, ofTokens, Token.nest_of_closes hcloses]
      exact ⟨[⟨[b], t⟩], rfl, rfl, List.forall_mem_singleton.2 rfl⟩
    · obtain ⟨inside, hsplit, htokens, haround⟩ := ih (t.nest bs)
      rw [Token.enclosed_cons hcloser, ofTokens, Token.nest_concat hcloser, hsplit]
      refine ⟨⟨bs ++ [b], t⟩ :: inside, rfl, congrArg (t :: ·) htokens, ?_⟩
      exact List.forall_mem_cons.2 ⟨List.getLast?_concat, haround⟩

theorem spelled_ofTokens (ts : List Token) : Spelled (Nested.ofTokens [] ts) (Component.ofTokens ts) := by
  induction ts using Component.ofTokens_induction with
  | nil => exact .nil
  | leaf t ts hopens ih =>
    rw [Component.ofTokens_leaf hopens, Nested.ofTokens, Token.nest_nil hopens]
    exact .leaf hopens ih
  | block t b ts hopens _ ih =>
    obtain ⟨inside, hsplit, htokens, haround⟩ := Nested.ofTokens_enclosed b [] ts
    rw [List.nil_append] at hsplit
    rw [Component.ofTokens_opening hopens, Nested.ofTokens, Token.nest_of_opens hopens, hsplit]
    refine .block hopens haround ?_ ih
    rw [htokens, Component.tokens_ofTokens]

/-- What stands inside a block stands outside of no bracket. -/
theorem Nested.isTop_of_getLast? {n : Nested} {b : Bracket} (h : n.around.getLast? = some b)
    (kind : Token.Kind) : n.isTop kind = false := by
  unfold isTop
  cases haround : n.around with
  | nil =>
    rw [haround] at h
    cases h
  | cons c cs => rfl

/-- An opening bracket is of no kind that opens nothing. -/
theorem Nested.isTop_opener {t : Token} {b : Bracket} (h : t.kind.opens? = some b)
    {kind : Token.Kind} (hkind : kind.opens? = none) : isTop kind ⟨[], t⟩ = false := by
  exact beq_eq_false_iff_ne.2 (Token.Kind.ne_of_opens? h hkind)

namespace Spelled

variable {ns : List Nested} {cs : List Component}

theorem text_inside {inside : List Nested} {ts : List Token} (h : inside.map Nested.token = ts) :
    Nested.text inside = ts.flatMap Token.text := by
  rw [← h, Nested.text, List.flatMap_map]

theorem text_append (ns ms : List Nested) :
    Nested.text (ns ++ ms) = Nested.text ns ++ Nested.text ms :=
  List.flatMap_append

theorem text_cons (n : Nested) (ns : List Nested) :
    Nested.text (n :: ns) = n.token.text ++ Nested.text ns :=
  List.flatMap_cons

theorem text_eq (h : Spelled ns cs) : Nested.text ns = cs.flatMap Component.text := by
  induction h with
  | nil => rfl
  | leaf hopens _ ih =>
    rw [text_cons, List.flatMap_cons, ih, Component.text_leaf]
  | block hopens haround htokens _ ih =>
    rw [text_cons, text_append, List.flatMap_cons, ih, text_inside htokens, Component.text_block,
      List.append_assoc]

/-- Comments outside of all brackets are components, and the others belong to blocks. -/
theorem plainText_eq (h : Spelled ns cs) : Nested.plainText ns = Component.plainText cs := by
  unfold Nested.plainText Component.plainText
  induction h with
  | nil => rfl
  | @leaf t ns cs hopens _ ih =>
    have hcomment : Nested.isTop .comment ⟨[], t⟩ = (Component.leaf t).isComment := rfl
    cases hleaf : (Component.leaf t).isComment with
    | true =>
      rw [List.filter_cons_of_neg (by simp [hcomment, hleaf]),
        List.filter_cons_of_neg (by simp [hleaf]), ih]
    | false =>
      rw [List.filter_cons_of_pos (by simp [hcomment, hleaf]),
        List.filter_cons_of_pos (by simp [hleaf]), text_cons, List.flatMap_cons, ih,
        Component.text_leaf]
  | @block t b inside ns contents cs closer hopens haround htokens _ ih =>
    have hinside : inside.filter (!·.isTop .comment) = inside := by
      rw [List.filter_eq_self]
      intro n hn
      rw [Nested.isTop_of_getLast? (haround n hn)]
      rfl
    have hopener : (!Nested.isTop .comment ⟨[], t⟩) = true := by
      rw [Nested.isTop_opener hopens rfl]
      rfl
    rw [List.filter_cons_of_pos (p := fun n => !Nested.isTop .comment n) hopener,
      List.filter_append, hinside,
      List.filter_cons_of_pos rfl, text_cons, text_append, List.flatMap_cons, ih,
      text_inside htokens, Component.text_block, List.append_assoc]

/-- What joins the first piece of a level does so on both sides. -/
theorem forall₂_splitOn_cons {p : Component → Bool} {f : List Nested → List Nested} {c : Component}
    {rows : List (List Nested)} (h : List.Forall₂ Spelled rows (Component.splitOn p cs))
    (hc : ¬p c = true) (hf : ∀ ns cs, Spelled ns cs → Spelled (f ns) (c :: cs)) :
    List.Forall₂ Spelled (rows.modifyHead f) (Component.splitOn p (c :: cs)) := by
  obtain ⟨d, ds, hsplit, hcons⟩ := exists_splitOn_cons (Bool.eq_false_iff.2 hc) cs
  rw [hsplit] at h
  rw [hcons]
  cases h with
  | cons hhead htail => exact .cons (hf _ _ hhead) htail

theorem splitOnP_append {p : Nested → Bool} {front : List Nested} (h : ∀ n ∈ front, p n = false)
    (back : List Nested) :
    (front ++ back).splitOnP p = (back.splitOnP p).modifyHead (front ++ ·) := by
  induction front with
  | nil =>
    obtain ⟨row, rows, hrows⟩ := List.exists_cons_of_ne_nil (List.splitOnP_ne_nil p back)
    rw [List.nil_append, hrows]
    rfl
  | cons n front ih =>
    obtain ⟨hn, hfront⟩ := List.forall_mem_cons.1 h
    rw [List.cons_append, List.splitOnP_cons_eq_if_modifyHead, hn, if_neg Bool.false_ne_true,
      ih hfront, List.modifyHead_modifyHead]
    rfl

/-- A level is cut at the components of a kind where its tokens of that kind are outside of all
brackets. -/
theorem splitOn_kind {kind : Token.Kind} (hkind : kind.opens? = none) (h : Spelled ns cs) :
    List.Forall₂ Spelled (ns.splitOnP (Nested.isTop kind))
      (Component.splitOn (Component.isLeaf kind) cs) := by
  induction h with
  | nil => exact .cons .nil .nil
  | @leaf t ns cs hopens rest ih =>
    have htop : Nested.isTop kind ⟨[], t⟩ = (Component.leaf t).isLeaf kind := rfl
    rw [List.splitOnP_cons_eq_if_modifyHead, htop]
    by_cases hleaf : (Component.leaf t).isLeaf kind = true
    · rw [if_pos hleaf, Component.splitOn, if_pos hleaf]
      exact .cons .nil ih
    · rw [if_neg hleaf]
      exact forall₂_splitOn_cons ih hleaf fun _ _ h => .leaf hopens h
  | @block t b inside ns contents cs closer hopens haround htokens rest ih =>
    have hinside : ∀ n ∈ (⟨[], t⟩ : Nested) :: inside, n.isTop kind = false :=
      List.forall_mem_cons.2 ⟨Nested.isTop_opener hopens hkind,
        fun n hn => Nested.isTop_of_getLast? (haround n hn) _⟩
    rw [← List.cons_append, splitOnP_append hinside]
    exact forall₂_splitOn_cons ih Bool.false_ne_true fun _ _ h => .block hopens haround htokens h

/-- The front of a level and the rest of it, where what is asked of a component is asked of its first
token, and of the tokens inside a block too. -/
theorem split {p : Nested → Bool} {q : Component → Bool}
    (hleaf : ∀ t, t.kind.opens? = none → p ⟨[], t⟩ = q (.leaf t))
    (hblock : ∀ t b contents closer, t.kind.opens? = some b →
      p ⟨[], t⟩ = q (.block t contents closer))
    (hinside : ∀ t b n, t.kind.opens? = some b → p ⟨[], t⟩ = true → n.around.getLast? = some b →
      p n = true) (h : Spelled ns cs) :
    Spelled (ns.takeWhile p) (cs.takeWhile q) ∧ Spelled (ns.dropWhile p) (cs.dropWhile q) := by
  induction h with
  | nil => exact ⟨.nil, .nil⟩
  | @leaf t ns cs hopens rest ih =>
    rw [List.takeWhile_cons, List.takeWhile_cons, List.dropWhile_cons, List.dropWhile_cons,
      hleaf t hopens]
    split
    · exact ⟨.leaf hopens ih.1, ih.2⟩
    · exact ⟨.nil, .leaf hopens rest⟩
  | @block t b inside ns contents cs closer hopens haround htokens rest ih =>
    have hopener := hblock t b contents closer hopens
    rw [List.takeWhile_cons, List.takeWhile_cons, List.dropWhile_cons, List.dropWhile_cons, hopener]
    split
    · next hpart =>
      have hall : ∀ n ∈ inside, p n = true := fun n hn =>
        hinside t b n hopens (hopener.trans hpart) (haround n hn)
      rw [List.takeWhile_append_of_pos hall, List.dropWhile_append_of_pos hall]
      exact ⟨.block hopens haround htokens ih.1, ih.2⟩
    · exact ⟨.nil, .block hopens haround htokens rest⟩

/-- The part of a level that may stand in a property, and the rest of it. -/
theorem split_property (h : Spelled ns cs) :
    Spelled (ns.takeWhile Nested.isPropertyPart) (cs.takeWhile Declaration.isPropertyPart) ∧
      Spelled (ns.dropWhile Nested.isPropertyPart) (cs.dropWhile Declaration.isPropertyPart) := by
  have hsquare : ∀ {t : Token} {b : Bracket}, t.kind.opens? = some b →
      Nested.isPropertyPart ⟨[], t⟩ = (t.kind == .opening .square) := by
    intro t b hopens
    cases hkind : t.kind with
    | opening c => simp [Nested.isPropertyPart, hkind]
    | function => simp [Nested.isPropertyPart, hkind]
    | _ =>
      rw [hkind] at hopens
      cases hopens
  refine h.split (fun t hopens => ?_) (fun t b contents closer hopens => hsquare hopens)
    fun t b n hopens hpart haround => ?_
  · have hsquare : (t.kind == .opening .square) = false :=
      beq_eq_false_iff_ne.2 (Token.Kind.ne_of_opens? rfl hopens).symm
    unfold Nested.isPropertyPart Declaration.isPropertyPart
    dsimp only [List.getLast?_nil]
    rw [hsquare, Bool.or_false]
  · rw [hsquare hopens] at hpart
    rw [beq_iff_eq.1 hpart] at hopens
    obtain rfl := Option.some.inj hopens
    rw [Nested.isPropertyPart, haround]
    rfl

end Spelled

/-! ## What a chunk says -/

/-- A colon is no part of a property. -/
theorem Nested.isPropertyPart_of_colon {n : Nested} (h : n.isTop .colon = true) :
    n.isPropertyPart = false := by
  obtain ⟨haround, hkind⟩ := Bool.and_eq_true_iff.1 h
  unfold isPropertyPart
  rw [List.isEmpty_iff.1 haround, beq_iff_eq.1 hkind]
  rfl

/-- A colon ends what may stand in a property. -/
theorem Nested.split_at_colon {front value : List Nested} {colon : Nested}
    (hparts : ∀ n ∈ front, n.isPropertyPart = true) (hcolon : colon.isTop .colon = true) :
    (front ++ colon :: value).takeWhile isPropertyPart = front ∧
      (front ++ colon :: value).dropWhile isPropertyPart = colon :: value := by
  have hpart := isPropertyPart_of_colon hcolon
  constructor
  · rw [List.takeWhile_append_of_pos hparts, List.takeWhile_cons, hpart]
    exact List.append_nil front
  · rw [List.dropWhile_append_of_pos hparts, List.dropWhile_cons, hpart]
    rfl

/-- Tokens make one declaration at most. -/
theorem Chunk.Declares.unique {ns : List Nested} {d e : Declaration} (h : Declares ns d)
    (h' : Declares ns e) : d = e := by
  obtain ⟨front, colon, value, rfl, hparts, hcolon, hproperty, hvalue⟩ := h.exists_colon
  obtain ⟨front', colon', value', hns, hparts', hcolon', hproperty', hvalue'⟩ := h'.exists_colon
  have htake : (front ++ colon :: value).takeWhile Nested.isPropertyPart = front :=
    (Nested.split_at_colon hparts hcolon).1
  rw [hns, (Nested.split_at_colon hparts' hcolon').1] at htake
  obtain rfl := htake
  obtain ⟨rfl, rfl⟩ := List.cons.inj (List.append_cancel_left hns)
  obtain ⟨property, text⟩ := d
  obtain ⟨property', text'⟩ := e
  rw [Declaration.mk.injEq]
  exact ⟨hproperty.trans hproperty'.symm, hvalue.trans hvalue'.symm⟩

namespace Spelled

variable {ns : List Nested} {cs : List Component} {d : Declaration}

theorem declares_of_ofComponents? (h : Spelled ns cs)
    (hsome : Declaration.ofComponents? cs = some d) : Chunk.Declares ns d := by
  obtain ⟨hfront, hback⟩ := h.split_property
  unfold Declaration.ofComponents? at hsome
  dsimp only at hsome
  rw [← hfront.text_eq] at hsome
  cases hdrop : cs.dropWhile Declaration.isPropertyPart with
  | nil =>
    rw [hdrop] at hsome
    cases hsome
  | cons c value =>
    rw [hdrop] at hsome hback
    dsimp only at hsome
    rw [Option.ite_none_right_eq_some, Bool.and_eq_true_iff, Bool.and_eq_true_iff] at hsome
    obtain ⟨⟨⟨hcolon, hne⟩, hsolid⟩, heq⟩ := hsome
    obtain rfl := Option.some.inj heq
    generalize hns : ns.dropWhile Nested.isPropertyPart = rest at hback
    cases hback with
    | block => cases hcolon
    | @leaf t vs _ hopens hvalue =>
      refine ⟨⟨_, ⟨[], t⟩, vs, ?_, ?_, hcolon, rfl, ?_⟩, ?_, ?_⟩
      · rw [← hns, List.takeWhile_append_dropWhile]
      · exact fun n hn => List.mem_takeWhile_imp hn
      · rw [Component.trimmedText, hvalue.plainText_eq]
      · intro hnil
        rw [String.ofList_eq_empty_iff.1 hnil] at hne
        cases hne
      · intro x hx
        rw [String.toList_ofList] at hx
        rw [Bool.not_eq_true'] at hsolid
        exact Bool.eq_false_iff.2 (List.any_eq_false.1 hsolid x hx)

theorem ofComponents?_of_declares (h : Spelled ns cs) (hd : Chunk.Declares ns d) :
    Declaration.ofComponents? cs = some d := by
  obtain ⟨⟨front, colon, value, rfl, hparts, hcolon, hproperty, hvalue⟩, hne, hsolid⟩ := hd
  obtain ⟨hfront, hback⟩ := h.split_property
  obtain ⟨htake, hdrop⟩ := Nested.split_at_colon hparts hcolon
  have htext := hfront.text_eq
  rw [htake] at htext
  rw [hdrop] at hback
  have hempty : (Text.trim (Nested.text front)).isEmpty = false := by
    rw [Bool.eq_false_iff]
    intro hempty
    rw [hproperty, List.isEmpty_iff.1 hempty] at hne
    exact hne rfl
  have hany : (Text.trim (Nested.text front)).any Text.isBlank = false := by
    rw [List.any_eq_false]
    intro x hx
    rw [hproperty, String.toList_ofList] at hsolid
    exact Bool.eq_false_iff.1 (hsolid x hx)
  unfold Declaration.ofComponents?
  dsimp only
  rw [← htext]
  generalize cs.dropWhile Declaration.isPropertyPart = rest at hback
  cases hback with
  | block hopens =>
    rw [Nested.isTop_opener hopens rfl] at hcolon
    cases hcolon
  | @leaf t _ vs hopens hrest =>
    have hleaf : (Component.leaf t).isLeaf .colon = true := hcolon
    dsimp only
    rw [hleaf, hempty, hany, Component.trimmedText, ← hrest.plainText_eq, ← hproperty, ← hvalue]
    rfl

theorem readComment_of_ends {text : List Char} (h : Token.endsComment text = true) (body : List Char)
    (place : Location) (o : ReadOptions) :
    readComment body text place o = ([], .ok (some (String.ofList body))) := by
  rw [readComment, if_pos h]
  rfl

theorem readComment_of_open {text : List Char} (h : Token.endsComment text = false) (body : List Char)
    (place : Location) (source : Option String) : readComment body text place ⟨source, true⟩ =
      ([.problem ⟨.unclosedComment, place, source⟩], .ok none) := by
  rw [readComment, h, if_neg Bool.false_ne_true]
  rfl

/-- A chunk that starts with something other than white space and comments is one declaration or one
problem. -/
theorem reads_declaration {n : Nested} {c : Component} (h : Spelled (n :: ns) (c :: cs))
    (hspace : c.isWhiteSpace = false) (hcomment : c.isComment = false)
    (hkinds : n.token.kind ≠ .whiteSpace ∧ n.token.kind ≠ .comment) (hstart : c.start = n.token.start)
    (source : Option String) : ∃ es ps,
      readChunk (c :: cs) ⟨source, true⟩ = (ps.map Notice.problem, .ok es) ∧
      Chunk.Reads source (n :: ns) es ps := by
  unfold readChunk
  rw [hspace, if_neg Bool.false_ne_true, hcomment, if_neg Bool.false_ne_true]
  cases hsome : Declaration.ofComponents? (c :: cs) with
  | some d =>
    exact ⟨_, [], rfl, .declaration hkinds.1 hkinds.2 (h.declares_of_ofComponents? hsome)⟩
  | none =>
    refine ⟨[], [⟨.noProperty, c.start, source⟩], rfl, ?_⟩
    rw [hstart]
    refine .malformed hkinds.1 hkinds.2 fun d hd => ?_
    rw [h.ofComponents?_of_declares hd] at hsome
    cases hsome

/-- What is read off the components of a chunk is what its tokens say. -/
theorem reads (h : Spelled ns cs) (source : Option String) :
    ∃ es ps, readChunk cs ⟨source, true⟩ = (ps.map Notice.problem, .ok es) ∧
      Chunk.Reads source ns es ps := by
  induction h with
  | nil => exact ⟨[], [], rfl, .nil⟩
  | @leaf t ns cs hopens rest ih =>
    obtain ⟨es, ps, hrun, hreads⟩ := ih
    by_cases hspace : t.kind = .whiteSpace
    · refine ⟨es, ps, ?_, .space hspace hreads⟩
      have hleaf : (Component.leaf t).isWhiteSpace = true := beq_iff_eq.2 hspace
      rw [readChunk, if_pos hleaf, hrun]
    · have hleaf : (Component.leaf t).isWhiteSpace = false := beq_eq_false_iff_ne.2 hspace
      by_cases hcomment : t.kind = .comment
      · have hleaf' : (Component.leaf t).isComment = true := beq_iff_eq.2 hcomment
        rw [readChunk, hleaf, if_neg Bool.false_ne_true, if_pos hleaf', Component.text_leaf,
          Reading.bind_run]
        cases hends : Token.endsComment t.text with
        | true =>
          refine ⟨_, ps, ?_, .comment hcomment hends hreads⟩
          rw [readComment_of_ends hends]
          dsimp only
          rw [Reading.map_run, hrun]
          rfl
        | false =>
          refine ⟨es, ⟨.unclosedComment, t.start, source⟩ :: ps, ?_,
            .unclosed hcomment hends hreads⟩
          rw [readComment_of_open hends]
          dsimp only
          rw [Reading.map_run, hrun]
          rfl
      · exact reads_declaration (.leaf hopens rest) hleaf (beq_eq_false_iff_ne.2 hcomment)
          ⟨hspace, hcomment⟩ rfl source
  | @block t b inside ns contents cs closer hopens haround htokens rest ih =>
    have hkinds : t.kind ≠ .whiteSpace ∧ t.kind ≠ .comment :=
      ⟨Token.Kind.ne_of_opens? hopens rfl, Token.Kind.ne_of_opens? hopens rfl⟩
    exact reads_declaration (.block hopens haround htokens rest) rfl rfl hkinds rfl source

end Spelled

/-! ## Declaration blocks -/

/-- There is no other way to read a chunk. -/
theorem Chunk.Reads.unique {source : Option String} {ns : List Nested}
    {es fs : List DeclarationEntry} {ps qs : List Problem} (h : Reads source ns es ps)
    (h' : Reads source ns fs qs) : es = fs ∧ ps = qs := by
  induction h generalizing fs qs with
  | nil =>
    cases h'
    exact ⟨rfl, rfl⟩
  | space hkind _ ih =>
    cases h' with
    | space _ rest => exact ih rest
    | comment hkind' | unclosed hkind' =>
      rw [hkind] at hkind'
      cases hkind'
    | declaration hspace | malformed hspace => exact absurd hkind hspace
  | comment hkind hends _ ih =>
    cases h' with
    | comment _ _ rest =>
      obtain ⟨rfl, rfl⟩ := ih rest
      exact ⟨rfl, rfl⟩
    | space hkind' =>
      rw [hkind] at hkind'
      cases hkind'
    | unclosed _ hends' =>
      rw [hends] at hends'
      cases hends'
    | declaration _ hcomment | malformed _ hcomment => exact absurd hkind hcomment
  | unclosed hkind hends _ ih =>
    cases h' with
    | unclosed _ _ rest =>
      obtain ⟨rfl, rfl⟩ := ih rest
      exact ⟨rfl, rfl⟩
    | space hkind' =>
      rw [hkind] at hkind'
      cases hkind'
    | comment _ hends' =>
      rw [hends] at hends'
      cases hends'
    | declaration _ hcomment | malformed _ hcomment => exact absurd hkind hcomment
  | declaration hspace hcomment hd =>
    cases h' with
    | declaration _ _ hd' =>
      obtain rfl := hd.unique hd'
      exact ⟨rfl, rfl⟩
    | malformed _ _ hnone => exact absurd hd (hnone _)
    | space hkind => exact absurd hkind hspace
    | comment hkind | unclosed hkind => exact absurd hkind hcomment
  | malformed hspace hcomment hnone =>
    cases h' with
    | malformed => exact ⟨rfl, rfl⟩
    | declaration _ _ hd => exact absurd hd (hnone _)
    | space hkind => exact absurd hkind hspace
    | comment hkind | unclosed hkind => exact absurd hkind hcomment

theorem Chunk.exists_reads (source : Option String) (ns : List Nested) :
    ∃ es ps, Reads source ns es ps := by
  induction ns with
  | nil => exact ⟨[], [], .nil⟩
  | cons n ns ih =>
    obtain ⟨es, ps, hreads⟩ := ih
    by_cases hspace : n.token.kind = .whiteSpace
    · exact ⟨es, ps, .space hspace hreads⟩
    by_cases hcomment : n.token.kind = .comment
    · cases hends : Token.endsComment n.token.text with
      | true => exact ⟨_, ps, .comment hcomment hends hreads⟩
      | false => exact ⟨es, _, .unclosed hcomment hends hreads⟩
    by_cases hdeclares : ∃ d, Declares (n :: ns) d
    · obtain ⟨d, hd⟩ := hdeclares
      exact ⟨_, _, .declaration hspace hcomment hd⟩
    · exact ⟨_, _, .malformed hspace hcomment fun d hd => hdeclares ⟨d, hd⟩⟩

/-- There is one way to read a chunk. -/
theorem Chunk.exists_reading (source : Option String) :
    ∃ reading : List Nested → List DeclarationEntry × List Problem,
      ∀ ns es ps, Reads source ns es ps ↔ reading ns = (es, ps) := by
  choose entries problems hreads using exists_reads source
  refine ⟨fun ns => (entries ns, problems ns), fun ns es ps => ⟨fun h => ?_, fun h => ?_⟩⟩
  · obtain ⟨rfl, rfl⟩ := (hreads ns).unique h
    rfl
  · obtain ⟨rfl, rfl⟩ := Prod.mk.inj h
    exact hreads ns

/-- Chunks are read one after the other, each by itself. -/
theorem readChunks_run {source : Option String}
    {reading : List Nested → List DeclarationEntry × List Problem}
    (hreading : ∀ ns es ps, Chunk.Reads source ns es ps ↔ reading ns = (es, ps))
    {rows : List (List Nested)} {chunks : List (List Component)}
    (h : List.Forall₂ Spelled rows chunks) : readChunks chunks ⟨source, true⟩ =
      ((rows.flatMap fun row => (reading row).2).map Notice.problem,
        .ok (rows.flatMap fun row => (reading row).1)) := by
  induction h with
  | nil => rfl
  | @cons row chunk rows chunks hspelled _ ih =>
    obtain ⟨es, ps, hrun, hreads⟩ := hspelled.reads source
    rw [readChunks, Reading.bind_run, hrun]
    dsimp only
    rw [Reading.map_run, ih, List.flatMap_cons, List.flatMap_cons, (hreading row es ps).1 hreads,
      List.map_append]
    rfl

/-- A declaration block is what its chunks say. -/
theorem readDeclarations_run {source : Option String}
    {reading : List Nested → List DeclarationEntry × List Problem}
    (hreading : ∀ ns es ps, Chunk.Reads source ns es ps ↔ reading ns = (es, ps)) (ts : List Token) :
    readDeclarations (Component.ofTokens ts) ⟨source, true⟩ =
      (((chunksOf ts).flatMap fun chunk => (reading chunk).2).map Notice.problem,
        .ok ((chunksOf ts).flatMap fun chunk => (reading chunk).1)) :=
  readChunks_run hreading (Spelled.splitOn_kind rfl (spelled_ofTokens ts))

end Restyle.Css
