import Restyle.Proofs.Chunks

/-!
# Declarations token by token

A reader that knows tokens only goes through a declaration block once (`Scan.declarations`).  At the first
token of a declaration it goes back, reads a property and a value that end in front of the next semicolon,
and goes on behind that.  It may stop early, with a block just opened; what it has not read is passed over
then, whole blocks at a time.

It reads what the chunks of the block say (`declarations_are_chunks`): wherever it stops, the next
semicolon outside of all blocks is the same (`Scan.toSemicolon_property`).
-/

namespace Restyle.Css

open Component

theorem length_passOver_le (bs : List Bracket) (ts : List Token) :
    (passOver bs ts).length ≤ ts.length := by
  fun_induction passOver bs ts with
  | case1 => exact Nat.le_refl _
  | case2 => exact Nat.le_refl _
  | case3 b bs t ts _ ih | case4 b bs t ts _ inner _ ih | case5 b bs t ts _ _ ih =>
    exact Nat.le_succ_of_le ih

namespace Scan

/-- The text between two places in a row of tokens, given what stands from each of them on. -/
def between (ts rest : List Token) : List Char :=
  (ts.take (ts.length - rest.length)).flatMap Token.text

/-- Goes on to the next semicolon.  Blocks are passed over as a whole. -/
def toSemicolon : List Token → List Token
  | [] => []
  | t :: ts =>
    if t.kind = .semicolon then t :: ts
    else toSemicolon (passOver t.kind.opens?.toList ts)
termination_by ts => ts.length
decreasing_by exact Nat.lt_succ_of_le (length_passOver_le _ _)

/-- The property that a text names, if it is not empty and has no white space in it. -/
def nameOf? (text : List Char) : Option String :=
  let name := Text.trim text
  if name.isEmpty || name.any Text.isBlank then none else some (String.ofList name)

/-- Whether a property may be written with a token. -/
def isNamePart (t : Token) : Bool :=
  t.kind == .ident || t.kind == .whiteSpace || (t.kind == .delimiter && t.text == ['*'])

/-- Where the reading of a property has stopped: the name in front of the colon that was read last, what
stands behind, and the block that has been opened by the token in front. -/
structure Stop where
  name : Option String
  rest : List Token
  opened : Option Bracket

/-- Reads a property and its colon.  The property starts where `start` does. -/
def property (start : List Token) : List Token → Stop
  | [] => ⟨none, [], none⟩
  | t :: ts =>
    if t.kind = .semicolon then ⟨none, t :: ts, none⟩
    else if t.kind = .colon then ⟨nameOf? (between start (t :: ts)), ts, none⟩
    else if isNamePart t then property start ts
    else if t.kind = .opening .square then property start (passOver [.square] ts)
    else ⟨none, ts, t.kind.opens?⟩
termination_by ts => ts.length
decreasing_by
  · exact Nat.lt_succ_self _
  · exact Nat.lt_succ_of_le (length_passOver_le _ _)

/-- Reads a value up to the next semicolon.  Comments outside of blocks are left out. -/
def value : List Token → List Char × List Token
  | [] => ([], [])
  | t :: ts =>
    if t.kind = .semicolon then ([], t :: ts)
    else if t.kind = .comment then value ts
    else
      let behind := passOver t.kind.opens?.toList ts
      (between (t :: ts) behind ++ (value behind).1, (value behind).2)
termination_by ts => ts.length
decreasing_by
  · exact Nat.lt_succ_self _
  · exact Nat.lt_succ_of_le (length_passOver_le _ _)

/-- Reads a declaration and what is left up to and including the next semicolon. -/
def declaration (ts : List Token) : Option Declaration × List Token :=
  match property ts ts with
  | ⟨some name, rest, _⟩ =>
    (some ⟨name, String.ofList (Text.trim (value rest).1)⟩, (toSemicolon (value rest).2).drop 1)
  | ⟨none, rest, opened⟩ => (none, (toSemicolon (passOver opened.toList rest)).drop 1)

/-! ## The next semicolon -/

theorem length_toSemicolon_le (ts : List Token) : (toSemicolon ts).length ≤ ts.length := by
  fun_induction toSemicolon ts with
  | case1 => exact Nat.le_refl _
  | case2 => exact Nat.le_refl _
  | case3 t ts _ ih => exact Nat.le_succ_of_le (Nat.le_trans ih (length_passOver_le _ _))

theorem toSemicolon_of_ne {t : Token} (h : t.kind ≠ .semicolon) (ts : List Token) :
    toSemicolon (t :: ts) = toSemicolon (passOver t.kind.opens?.toList ts) := by
  rw [toSemicolon, if_neg h]

theorem toSemicolon_toSemicolon (ts : List Token) : toSemicolon (toSemicolon ts) = toSemicolon ts := by
  fun_induction toSemicolon ts with
  | case1 => rw [toSemicolon]
  | case2 t ts h => rw [toSemicolon, if_pos h]
  | case3 t ts _ ih => exact ih

theorem opens?_of_isNamePart {t : Token} (h : isNamePart t = true) : t.kind.opens? = none := by
  unfold isNamePart at h
  cases hkind : t.kind with
  | function | opening b =>
    rw [hkind] at h
    cases h
  | _ => rfl

/-- Wherever the reading of a property stops, the next semicolon is the same. -/
theorem toSemicolon_property (start ts : List Token) :
    toSemicolon (passOver (property start ts).opened.toList (property start ts).rest) =
      toSemicolon ts := by
  fun_induction property start ts with
  | case1 => rfl
  | case2 t ts h => exact congrArg toSemicolon (passOver_nil _)
  | case3 t ts hne hcolon =>
    rw [toSemicolon_of_ne hne, hcolon]
    rfl
  | case4 t ts hne hcolon hpart ih =>
    rw [ih, toSemicolon_of_ne hne, opens?_of_isNamePart hpart]
    exact congrArg toSemicolon (passOver_nil _).symm
  | case5 t ts hne hcolon hpart hsquare ih =>
    rw [ih, toSemicolon_of_ne hne, hsquare]
    rfl
  | case6 t ts hne hcolon hpart hsquare => exact (toSemicolon_of_ne hne ts).symm

/-- Behind a colon no block has been opened. -/
theorem opened_of_name {start ts : List Token} {name : String}
    (h : (property start ts).name = some name) : (property start ts).opened = none := by
  fun_induction property start ts with
  | case1 | case2 | case6 => cases h
  | case3 => rfl
  | case4 t ts _ _ _ ih => exact ih h
  | case5 t ts _ _ _ _ ih => exact ih h

/-- A value ends in front of the next semicolon. -/
theorem value_snd (ts : List Token) : (value ts).2 = toSemicolon ts := by
  fun_induction value ts with
  | case1 => rw [toSemicolon]
  | case2 t ts h => rw [toSemicolon, if_pos h]
  | case3 t ts hne hcomment ih =>
    rw [ih, toSemicolon_of_ne hne, hcomment]
    exact congrArg toSemicolon (passOver_nil _).symm
  | case4 t ts hne hcomment behind ih => rw [ih, toSemicolon_of_ne hne]

/-- A declaration is left behind the next semicolon, whether it could be read or not. -/
theorem declaration_snd (ts : List Token) : (declaration ts).2 = (toSemicolon ts).drop 1 := by
  have hproperty := toSemicolon_property ts ts
  have hopened : ∀ name, (property ts ts).name = some name → (property ts ts).opened = none :=
    fun name => opened_of_name
  unfold declaration
  generalize property ts ts = stop at hproperty hopened ⊢
  rcases stop with ⟨_ | name, rest, opened⟩
  · exact congrArg (List.drop 1) hproperty
  · obtain rfl : opened = none := hopened name rfl
    dsimp only at hproperty ⊢
    rw [Option.toList_none, passOver_nil] at hproperty
    rw [value_snd, toSemicolon_toSemicolon, hproperty]

/-- Reads a declaration block token by token. -/
def declarations : List Token → Reading (List DeclarationEntry)
  | [] => return []
  | t :: ts =>
    if t.kind = .whiteSpace ∨ t.kind = .semicolon then declarations ts
    else if t.kind = .comment then do
      let comment ← readComment (Token.commentBody t.text) t.text t.start
      ((comment.map DeclarationEntry.comment).toList ++ ·) <$> declarations ts
    else
      match (declaration (t :: ts)).1 with
      | some d => (DeclarationEntry.declaration d :: ·) <$> declarations (declaration (t :: ts)).2
      | none => do
        Reading.report .noProperty t.start
        declarations (declaration (t :: ts)).2
termination_by ts => ts.length
decreasing_by
  · exact Nat.lt_succ_self _
  · exact Nat.lt_succ_self _
  all_goals
    rw [declaration_snd, List.length_drop]
    have hlength := length_toSemicolon_le (t :: ts)
    rw [List.length_cons] at hlength ⊢
    omega

/-! ## The component in front -/

/-- The component that starts with a token. -/
def component (t : Token) (ts : List Token) : Component :=
  match t.kind.opens? with
  | none => .leaf t
  | some b => .block t (ofTokens (Token.enclosed b [] ts).inside) (Token.enclosed b [] ts).closer

/-- To pass over a block is to go on behind the component that starts with its opening bracket. -/
theorem ofTokens_cons (t : Token) (ts : List Token) :
    ofTokens (t :: ts) = component t ts :: ofTokens (passOver t.kind.opens?.toList ts) := by
  unfold component
  cases hopens : t.kind.opens? with
  | none => rw [ofTokens_leaf hopens, Option.toList_none, passOver_nil]
  | some b =>
    rw [ofTokens_opening hopens]
    exact congrArg (_ :: ofTokens ·) (Token.passOver_eq_rest b [] ts).symm

theorem tokens_component (t : Token) (ts : List Token) :
    (component t ts).tokens ++ passOver t.kind.opens?.toList ts = t :: ts := by
  have h := congrArg tokensOf (ofTokens_cons t ts)
  rw [tokensOf_cons, tokens_ofTokens, tokens_ofTokens] at h
  exact h.symm

theorem start_component (t : Token) (ts : List Token) : (component t ts).start = t.start := by
  unfold component
  cases t.kind.opens? <;> rfl

theorem component_of_opens {t : Token} (h : t.kind.opens? = none) (ts : List Token) :
    component t ts = .leaf t := by
  unfold component
  rw [h]

theorem isLeaf_component {kind : Token.Kind} (hkind : kind.opens? = none) (t : Token)
    (ts : List Token) : (component t ts).isLeaf kind = (t.kind == kind) := by
  cases hopens : t.kind.opens? with
  | none =>
    rw [component_of_opens hopens]
    rfl
  | some b =>
    unfold component
    rw [hopens]
    exact (beq_eq_false_iff_ne.2 (Token.Kind.ne_of_opens? hopens hkind)).symm

theorem isPropertyPart_component (t : Token) (ts : List Token) :
    Declaration.isPropertyPart (component t ts) =
      (isNamePart t || t.kind == .opening .square) := by
  cases hopens : t.kind.opens? with
  | none =>
    have hsquare : (t.kind == .opening .square) = false :=
      beq_eq_false_iff_ne.2 (Token.Kind.ne_of_opens? rfl hopens).symm
    rw [component_of_opens hopens, hsquare, Bool.or_false]
    rfl
  | some b =>
    have hpart : isNamePart t = false := by
      rw [Bool.eq_false_iff]
      intro hpart
      rw [opens?_of_isNamePart hpart] at hopens
      cases hopens
    rw [hpart, Bool.false_or, component, hopens]
    rfl

/-! ## Chunks of components -/

/-- Whether a component ends no chunk. -/
def goesOn (c : Component) : Bool := !c.isSemicolon

theorem goesOn_iff (c : Component) : goesOn c = true ↔ ¬c.isSemicolon = true := by
  rw [goesOn, Bool.not_eq_true', Bool.not_eq_true]

theorem goesOn_leaf (t : Token) : goesOn (.leaf t) = true ↔ t.kind ≠ .semicolon := by
  rw [goesOn_iff, isSemicolon, isLeaf, beq_iff_eq]

theorem goesOn_component (t : Token) (ts : List Token) :
    goesOn (component t ts) = true ↔ t.kind ≠ .semicolon := by
  rw [goesOn_iff, isSemicolon, isLeaf_component rfl, beq_iff_eq]

theorem ofTokens_toSemicolon (ts : List Token) :
    ofTokens (toSemicolon ts) = (ofTokens ts).dropWhile goesOn := by
  fun_induction toSemicolon ts with
  | case1 => rfl
  | case2 t ts h =>
    have hends : ¬goesOn (component t ts) = true := fun hgoesOn =>
      (goesOn_component t ts).1 hgoesOn h
    rw [ofTokens_cons, List.dropWhile_cons, if_neg hends]
  | case3 t ts hne ih =>
    rw [ih, ofTokens_cons, List.dropWhile_cons, if_pos ((goesOn_component t ts).2 hne)]

/-- Behind a chunk and its semicolon. -/
theorem ofTokens_declaration (ts : List Token) :
    ofTokens (declaration ts).2 = ((ofTokens ts).dropWhile goesOn).drop 1 := by
  rw [declaration_snd, ← ofTokens_toSemicolon]
  have hhead : ∀ t ∈ (toSemicolon ts).head?, t.kind = .semicolon := by
    fun_induction toSemicolon ts with
    | case1 => intro t ht; cases ht
    | case2 t ts h => exact fun _ ht => Option.some.inj ht ▸ h
    | case3 t ts _ ih => exact ih
  cases hrest : toSemicolon ts with
  | nil => rfl
  | cons t us =>
    rw [hrest] at hhead
    rw [ofTokens_cons, hhead t rfl]
    exact congrArg ofTokens (passOver_nil us).symm

theorem between_append (front rest : List Token) :
    between (front ++ rest) rest = front.flatMap Token.text := by
  unfold between
  rw [List.length_append, Nat.add_sub_cancel, List.take_left]

/-- The value that is read is what stands up to the next semicolon. -/
theorem value_fst (ts : List Token) : (value ts).1 = plainText ((ofTokens ts).takeWhile goesOn) := by
  fun_induction value ts with
  | case1 => rfl
  | case2 t ts h =>
    have hends : ¬goesOn (component t ts) = true := fun hgoesOn =>
      (goesOn_component t ts).1 hgoesOn h
    rw [ofTokens_cons, List.takeWhile_cons, if_neg hends]
    rfl
  | case3 t ts hne hcomment ih =>
    have hopens : t.kind.opens? = none := by
      rw [hcomment]
      rfl
    have hleaf : isComment (.leaf t) = true := beq_iff_eq.2 hcomment
    rw [ih, ofTokens_leaf hopens, List.takeWhile_cons, if_pos ((goesOn_leaf t).2 hne),
      plainText_comment hleaf]
  | case4 t ts hne hcomment behind ih =>
    have hleaf : (component t ts).isComment = false := by
      rw [isComment, isLeaf_component rfl, beq_eq_false_iff_ne.2 hcomment]
    have htext : between (t :: ts) behind = (component t ts).text := by
      rw [← tokens_component t ts]
      exact between_append _ _
    rw [ofTokens_cons, List.takeWhile_cons, if_pos ((goesOn_component t ts).2 hne),
      plainText_cons hleaf, htext, ih]

/-! ## A declaration and its chunk -/

/-- The property that components name, if a colon comes behind what may stand in one.  The text is what
stands in front of them. -/
def namedBy (text : List Char) : List Component → Option String
  | [] => none
  | c :: cs =>
    if Declaration.isPropertyPart c then namedBy (text ++ c.text) cs
    else if c.isLeaf .colon then nameOf? text
    else none

theorem isPropertyPart_of_isNamePart {t : Token} (h : isNamePart t = true) (ts : List Token) :
    Declaration.isPropertyPart (component t ts) = true := by
  rw [isPropertyPart_component, h]
  rfl

theorem isPropertyPart_of_square {t : Token} (h : t.kind = .opening .square) (ts : List Token) :
    Declaration.isPropertyPart (component t ts) = true := by
  rw [isPropertyPart_component, h]
  exact Bool.or_true _

theorem namedBy_component (text : List Char) (t : Token) (ts : List Token) (cs : List Component) :
    namedBy text (component t ts :: cs) =
      if isNamePart t || t.kind == .opening .square then namedBy (text ++ (component t ts).text) cs
      else if t.kind = .colon then nameOf? text
      else none := by
  rw [namedBy, isPropertyPart_component, isLeaf_component rfl]
  exact if_congr Iff.rfl rfl (if_congr beq_iff_eq rfl rfl)

theorem namedBy_of_part (done : List Token) {t : Token} {ts : List Token}
    (h : Declaration.isPropertyPart (component t ts) = true) :
    namedBy (done.flatMap Token.text) (ofTokens (t :: ts)) =
      namedBy ((done ++ (component t ts).tokens).flatMap Token.text)
        (ofTokens (passOver t.kind.opens?.toList ts)) := by
  rw [ofTokens_cons, namedBy, if_pos h, List.flatMap_append]
  rfl

theorem namedBy_of_not_part {t : Token} (h : ¬isNamePart t = true)
    (hsquare : t.kind ≠ .opening .square) (text : List Char) (ts : List Token) :
    namedBy text (ofTokens (t :: ts)) = if t.kind = .colon then nameOf? text else none := by
  rw [ofTokens_cons, namedBy_component, Bool.eq_false_iff.2 h, beq_eq_false_iff_ne.2 hsquare]
  rfl

theorem not_isNamePart {t : Token} (h : t.kind = .semicolon ∨ t.kind = .colon) :
    ¬isNamePart t = true := by
  unfold isNamePart
  rcases h with hkind | hkind
  · rw [hkind]
    exact Bool.false_ne_true
  · rw [hkind]
    exact Bool.false_ne_true

/-- The name that is read is the one in front of the colon. -/
theorem property_name (done ts : List Token) :
    (property (done ++ ts) ts).name = namedBy (done.flatMap Token.text) (ofTokens ts) := by
  -- Where the reading started stays the same, and `done` grows by one component at a time.
  generalize hstart : done ++ ts = start
  fun_induction property start ts generalizing done
  case case1 => rfl
  case case2 t ts hsemicolon =>
    have hsquare : t.kind ≠ .opening .square := by
      rw [hsemicolon]
      exact nofun
    have hcolon : t.kind ≠ .colon := by
      rw [hsemicolon]
      exact nofun
    rw [namedBy_of_not_part (not_isNamePart (.inl hsemicolon)) hsquare, if_neg hcolon]
  case case3 t ts _ hcolon =>
    have hsquare : t.kind ≠ .opening .square := by
      rw [hcolon]
      exact nofun
    rw [namedBy_of_not_part (not_isNamePart (.inr hcolon)) hsquare, if_pos hcolon, ← hstart,
      between_append]
  case case4 t ts _ _ hpart ih =>
    have hopens := opens?_of_isNamePart hpart
    have hbehind := namedBy_of_part done (isPropertyPart_of_isNamePart hpart ts)
    rw [component_of_opens hopens, hopens, Option.toList_none, passOver_nil] at hbehind
    rw [hbehind]
    apply ih
    rw [← hstart, List.append_assoc]
    rfl
  case case5 t ts _ _ _ hsquare ih =>
    have hbehind := namedBy_of_part done (isPropertyPart_of_square hsquare ts)
    have htokens := tokens_component t ts
    rw [hsquare] at hbehind htokens
    rw [hbehind]
    apply ih
    rw [← hstart, List.append_assoc]
    exact congrArg (done ++ ·) htokens
  case case6 t ts _ hcolon hpart hsquare =>
    rw [namedBy_of_not_part hpart hsquare, if_neg hcolon]

/-- Behind a name that is read stands the value. -/
theorem ofTokens_rest {start ts : List Token} {name : String}
    (h : (property start ts).name = some name) : ofTokens (property start ts).rest =
      ((ofTokens ts).dropWhile Declaration.isPropertyPart).tail := by
  fun_induction property start ts with
  | case1 | case2 | case6 => cases h
  | case3 t ts _ hcolon =>
    have hpart : Declaration.isPropertyPart (component t ts) = false := by
      rw [isPropertyPart_component, Bool.eq_false_iff.2 (not_isNamePart (.inr hcolon)), hcolon]
      rfl
    rw [ofTokens_cons, List.dropWhile_cons, hpart, if_neg Bool.false_ne_true, hcolon]
    exact congrArg ofTokens (passOver_nil ts).symm
  | case4 t ts _ _ hpart ih =>
    rw [ih h, ofTokens_cons, List.dropWhile_cons, if_pos (isPropertyPart_of_isNamePart hpart ts),
      opens?_of_isNamePart hpart, Option.toList_none, passOver_nil]
  | case5 t ts _ _ _ hsquare ih =>
    rw [ih h, ofTokens_cons, List.dropWhile_cons, if_pos (isPropertyPart_of_square hsquare ts),
      hsquare]
    rfl

/-- What may stand in a property ends no chunk. -/
theorem goesOn_of_isPropertyPart {c : Component} (h : Declaration.isPropertyPart c = true) :
    goesOn c = true := by
  cases c with
  | block => rfl
  | leaf t =>
    rw [goesOn_leaf]
    intro hkind
    exact not_isNamePart (.inl hkind) h

theorem goesOn_of_colon {c : Component} (h : c.isLeaf .colon = true) : goesOn c = true := by
  cases c with
  | block => rfl
  | leaf t =>
    have hkind : t.kind = .colon := beq_iff_eq.1 h
    rw [goesOn_leaf, hkind]
    exact nofun

/-- A name does not depend on what comes behind the chunk. -/
theorem namedBy_takeWhile (text : List Char) (cs : List Component) :
    namedBy text (cs.takeWhile goesOn) = namedBy text cs := by
  induction cs generalizing text with
  | nil => rfl
  | cons c cs ih =>
    rw [List.takeWhile_cons, namedBy]
    by_cases hpart : Declaration.isPropertyPart c = true
    · rw [if_pos (goesOn_of_isPropertyPart hpart), namedBy, if_pos hpart, if_pos hpart, ih]
    · rw [if_neg hpart]
      by_cases hgoesOn : goesOn c = true
      · rw [if_pos hgoesOn, namedBy, if_neg hpart]
      · have hcolon : ¬c.isLeaf .colon = true := fun hcolon => hgoesOn (goesOn_of_colon hcolon)
        rw [if_neg hgoesOn, if_neg hcolon]
        rfl

/-- The value ends with the chunk. -/
theorem tail_dropWhile_takeWhile {text : List Char} {cs : List Component} {name : String}
    (h : namedBy text cs = some name) :
    ((cs.takeWhile goesOn).dropWhile Declaration.isPropertyPart).tail =
      ((cs.dropWhile Declaration.isPropertyPart).tail).takeWhile goesOn := by
  induction cs generalizing text with
  | nil => cases h
  | cons c cs ih =>
    rw [namedBy] at h
    by_cases hpart : Declaration.isPropertyPart c = true
    · rw [if_pos hpart] at h
      rw [List.takeWhile_cons, if_pos (goesOn_of_isPropertyPart hpart), List.dropWhile_cons,
        if_pos hpart, List.dropWhile_cons, if_pos hpart, ih h]
    · rw [if_neg hpart, Option.ite_none_right_eq_some] at h
      rw [List.takeWhile_cons, if_pos (goesOn_of_colon h.1), List.dropWhile_cons, if_neg hpart,
        List.dropWhile_cons, if_neg hpart]
      rfl

theorem namedBy_eq (text : List Char) (cs : List Component) : namedBy text cs =
    match cs.dropWhile Declaration.isPropertyPart with
    | [] => none
    | c :: _ =>
      if c.isLeaf .colon then
        nameOf? (text ++ (cs.takeWhile Declaration.isPropertyPart).flatMap Component.text)
      else none := by
  induction cs generalizing text with
  | nil => rfl
  | cons c cs ih =>
    rw [namedBy, List.dropWhile_cons, List.takeWhile_cons]
    by_cases hpart : Declaration.isPropertyPart c = true
    · rw [if_pos hpart, if_pos hpart, if_pos hpart, ih, List.flatMap_cons, List.append_assoc]
    · rw [if_neg hpart, if_neg hpart, if_neg hpart, List.flatMap_nil, List.append_nil]

theorem ofComponents?_eq (cs : List Component) : Declaration.ofComponents? cs =
    (namedBy [] cs).map fun name =>
      ⟨name, trimmedText (cs.dropWhile Declaration.isPropertyPart).tail⟩ := by
  rw [namedBy_eq, List.nil_append]
  unfold Declaration.ofComponents? nameOf?
  cases cs.dropWhile Declaration.isPropertyPart with
  | nil => rfl
  | cons c value =>
    dsimp only [List.tail_cons]
    cases c.isLeaf .colon with
    | false => rfl
    | true =>
      rw [Bool.true_and, ← Bool.not_or]
      cases _ || _ <;> rfl

/-- A declaration is read as its chunk is. -/
theorem declaration_fst (ts : List Token) : (declaration ts).1 =
    Declaration.ofComponents? ((ofTokens ts).takeWhile goesOn) := by
  rw [ofComponents?_eq, namedBy_takeWhile]
  have hname := property_name [] ts
  have hrest : ∀ name, (property ts ts).name = some name → _ := fun name => ofTokens_rest
  rw [List.nil_append, List.flatMap_nil] at hname
  unfold declaration
  generalize property ts ts = stop at hname hrest ⊢
  rcases stop with ⟨_ | name, rest, opened⟩
  · rw [← hname]
    rfl
  · rw [← hname, Option.map_some, tail_dropWhile_takeWhile hname.symm, ← hrest name rfl]
    dsimp only
    rw [value_fst]
    rfl

/-! ## A block and its chunks -/

theorem splitOn_semicolons (cs : List Component) : splitOn isSemicolon cs =
    cs.takeWhile goesOn :: match cs.dropWhile goesOn with
      | [] => []
      | _ :: rest => splitOn isSemicolon rest := by
  induction cs with
  | nil => rfl
  | cons c cs ih =>
    rw [splitOn, List.takeWhile_cons, List.dropWhile_cons]
    by_cases hsemicolon : c.isSemicolon = true
    · have hends : ¬goesOn c = true := fun hgoesOn => (goesOn_iff c).1 hgoesOn hsemicolon
      rw [if_pos hsemicolon, if_neg hends, if_neg hends]
    · have hgoesOn := (goesOn_iff c).2 hsemicolon
      rw [if_neg hsemicolon, if_pos hgoesOn, if_pos hgoesOn, ih]

/-- A block is read by its first chunk and what is left behind that. -/
theorem readDeclarations_eq (cs : List Component) : readDeclarations cs =
    readChunk (cs.takeWhile goesOn) >>= fun es =>
      (es ++ ·) <$> readDeclarations ((cs.dropWhile goesOn).drop 1) := by
  unfold readDeclarations
  rw [splitOn_semicolons, readChunks]
  cases cs.dropWhile goesOn with
  | nil => rfl
  | cons c rest => rfl

/-- A component that is passed over leaves nothing. -/
theorem readDeclarations_skip {c : Component} (h : c.isWhiteSpace = true ∨ c.isSemicolon = true)
    (cs : List Component) : readDeclarations (c :: cs) = readDeclarations cs := by
  rw [readDeclarations_eq, List.takeWhile_cons, List.dropWhile_cons]
  by_cases hsemicolon : c.isSemicolon = true
  · have hends : ¬goesOn c = true := fun hgoesOn => (goesOn_iff c).1 hgoesOn hsemicolon
    rw [if_neg hends, if_neg hends, readChunk, pure_bind]
    exact id_map _
  · have hgoesOn := (goesOn_iff c).2 hsemicolon
    rw [if_pos hgoesOn, if_pos hgoesOn, readChunk, if_pos (h.resolve_right hsemicolon),
      ← readDeclarations_eq]

/-- A comment in front is read by itself. -/
theorem readDeclarations_comment {t : Token} (h : t.kind = .comment) (cs : List Component) :
    readDeclarations (.leaf t :: cs) =
      readComment (Token.commentBody t.text) t.text t.start >>= fun comment =>
        ((comment.map DeclarationEntry.comment).toList ++ ·) <$> readDeclarations cs := by
  have hgoesOn : goesOn (.leaf t) = true := by
    rw [goesOn_leaf, h]
    exact nofun
  have hspace : ¬isWhiteSpace (.leaf t) = true := by
    rw [isWhiteSpace, isLeaf, h]
    exact Bool.false_ne_true
  have hcomment : isComment (.leaf t) = true := beq_iff_eq.2 h
  rw [readDeclarations_eq, List.takeWhile_cons, if_pos hgoesOn, List.dropWhile_cons, if_pos hgoesOn,
    readChunk, if_neg hspace, if_pos hcomment, text_leaf, readDeclarations_eq cs]
  simp only [bind_assoc, bind_map_left, map_bind, Functor.map_map, List.append_assoc]
  rfl

/-- A chunk with neither white space nor a comment in front is one declaration or one problem. -/
theorem readChunk_declaration {t : Token} (hskip : ¬(t.kind = .whiteSpace ∨ t.kind = .semicolon))
    (hcomment : t.kind ≠ .comment) (ts : List Token) :
    readChunk ((ofTokens (t :: ts)).takeWhile goesOn) =
      match (declaration (t :: ts)).1 with
      | some d => return [.declaration d]
      | none => do
        Reading.report .noProperty t.start
        return [] := by
  have hgoesOn : goesOn (component t ts) = true :=
    (goesOn_component t ts).2 fun hkind => hskip (.inr hkind)
  have hspace : ¬(component t ts).isWhiteSpace = true := by
    rw [isWhiteSpace, isLeaf_component rfl, beq_iff_eq]
    exact fun hkind => hskip (.inl hkind)
  have hleaf : ¬(component t ts).isComment = true := by
    rw [isComment, isLeaf_component rfl, beq_iff_eq]
    exact hcomment
  rw [declaration_fst, ofTokens_cons, List.takeWhile_cons, if_pos hgoesOn, ← start_component t ts,
    readChunk]
  exact (if_neg hspace).trans (if_neg hleaf)

/-- To go through a block token by token is to read its chunks. -/
theorem declarations_eq (ts : List Token) : declarations ts = readDeclarations (ofTokens ts) := by
  fun_induction declarations ts with
  | case1 => rfl
  | case2 t ts hskip ih =>
    have hopens : t.kind.opens? = none := by
      rcases hskip with hkind | hkind <;> rw [hkind] <;> rfl
    rw [ih, ofTokens_leaf hopens, readDeclarations_skip (hskip.imp beq_iff_eq.2 beq_iff_eq.2)]
  | case3 t ts _ hcomment ih =>
    have hopens : t.kind.opens? = none := by
      rw [hcomment]
      rfl
    rw [ih, ofTokens_leaf hopens, readDeclarations_comment hcomment]
  | case4 t ts hskip hcomment d hsome ih =>
    rw [ih, ofTokens_declaration, readDeclarations_eq (ofTokens (t :: ts)),
      readChunk_declaration hskip hcomment, hsome]
    rfl
  | case5 t ts hskip hcomment hnone ih =>
    rw [ih, ofTokens_declaration, readDeclarations_eq (ofTokens (t :: ts)),
      readChunk_declaration hskip hcomment, hnone, bind_assoc]
    simp only [pure_bind, List.nil_append, id_map']

end Scan

/-- What a silent reader has to say of a declaration block is what each of its chunks says, one after the
other, and each chunk says one thing, whatever stands in the others.  That holds for every block of a
text, and it is the same to go through the block token by token. -/
theorem declarations_are_chunks (source : Option String) :
    ∃ reading : List Nested → List DeclarationEntry × List Problem,
      (∀ chunk es ps, Chunk.Reads source chunk es ps ↔ reading chunk = (es, ps)) ∧
      (∀ ts, readDeclarations (ofTokens ts) ⟨source, true⟩ =
        (((chunksOf ts).flatMap fun chunk => (reading chunk).2).map Notice.problem,
          .ok ((chunksOf ts).flatMap fun chunk => (reading chunk).1))) ∧
      (∀ css contents, Within (ofText Location.start css) contents →
        contents = ofTokens (tokensOf contents)) ∧
      (∀ ts, Scan.declarations ts = readDeclarations (ofTokens ts)) ∧
      Problem.Cause.message .unclosedComment = "End of comment missing" ∧
      Problem.Cause.message .noProperty = "property missing ':'" := by
  obtain ⟨reading, hreading⟩ := Chunk.exists_reading source
  refine ⟨reading, hreading, readDeclarations_run hreading, ?_, Scan.declarations_eq, rfl, rfl⟩
  intro css contents hwithin
  exact hwithin.eq_ofTokens

-- The semicolon in the function ends no chunk.
example : readDeclarations (ofText Location.start "b:c;d(;);e:f".toList) ⟨none, true⟩ =
    ([.problem ⟨.noProperty, ⟨1, 5⟩, none⟩],
      .ok [.declaration ⟨"b", "c"⟩, .declaration ⟨"e", "f"⟩]) := by
  cbv

end Restyle.Css
