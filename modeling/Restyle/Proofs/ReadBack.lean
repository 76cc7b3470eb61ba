import Restyle.Proofs.Spelling

/-!
# Reading back what was spelled

A reader of a level reads entries off a text if it reads them off the components that the text spells,
in front of whatever else the level holds (`Reads`).  Declarations, frames and rules that are written
down one behind the other are therefore read one after the other.

Each kind of entry has one lemma here, about inert pieces of text for its selectors, its prelude and its
values and about a body that has been read back already.
-/

namespace Restyle.Css

open Component

section

variable {ε : Type} {reader : List Component → Reading (List ε)}

/-- A reader that has nothing to say of an empty level and of white space. -/
structure PassesOver (reader : List Component → Reading (List ε)) : Prop where
  nil : reader [] = pure []
  space : ∀ t cs, t.kind = .whiteSpace → reader (.leaf t :: cs) = reader cs

/-- The reader reads the entries off the text and goes on with what stands behind it. -/
def Reads (reader : List Component → Reading (List ε)) (w : List Char) (es : List ε) : Prop :=
  ∃ cs, Spells w cs ∧ ∀ ds, reader (cs ++ ds) = (es ++ ·) <$> reader ds

/-- The reader reads the entries off the text as the inside of a block. -/
def ReadsInside (reader : List Component → Reading (List ε)) (w : List Char) (es : List ε) : Prop :=
  ∃ cs, SpellsInside w cs ∧ reader cs = pure es

theorem reads_nil : Reads reader [] [] :=
  ⟨[], spells_nil, fun ds => by simp⟩

theorem Reads.append {v w : List Char} {es fs : List ε} (h : Reads reader v es)
    (h' : Reads reader w fs) : Reads reader (v ++ w) (es ++ fs) := by
  obtain ⟨cs, hspells, hread⟩ := h
  obtain ⟨ds, hspells', hread'⟩ := h'
  refine ⟨cs ++ ds, hspells.append hspells', fun rest => ?_⟩
  rw [List.append_assoc, hread, hread', Functor.map_map]
  simp only [List.append_assoc]

theorem Reads.append_inside {v w : List Char} {es fs : List ε} (h : Reads reader v es)
    (h' : ReadsInside reader w fs) : ReadsInside reader (v ++ w) (es ++ fs) := by
  obtain ⟨cs, hspells, hread⟩ := h
  obtain ⟨ds, hspells', hread'⟩ := h'
  refine ⟨cs ++ ds, hspells.append_inside hspells', ?_⟩
  rw [hread, hread', map_pure]

variable (hreader : PassesOver reader)

include hreader

theorem Reads.inside {w : List Char} {es : List ε} (h : Reads reader w es) :
    ReadsInside reader w es := by
  obtain ⟨cs, hspells, hread⟩ := h
  refine ⟨cs, hspells.inside, ?_⟩
  have hwhole := hread []
  rwa [List.append_nil, hreader.nil, map_pure, List.append_nil] at hwhole

theorem Reads.space {x : Char} {w : List Char} {es : List ε} (h : Reads reader (x :: w) es)
    (hx : isSpace x = false) {blanks : List Char} (hblanks : ∀ c ∈ blanks, isSpace c = true)
    (hne : blanks ≠ []) : Reads reader (blanks ++ x :: w) es := by
  obtain ⟨cs, hspells, hread⟩ := h
  refine ⟨_, hspells.space hblanks hne hx, fun ds => ?_⟩
  rw [List.cons_append, hreader.space _ _ rfl, hread]

theorem readsInside_space {blanks : List Char} (hblanks : ∀ c ∈ blanks, isSpace c = true)
    (hne : blanks ≠ []) : ReadsInside reader blanks [] := by
  refine ⟨_, spellsInside_space hblanks hne, ?_⟩
  rw [hreader.space _ _ rfl, hreader.nil]

/-- Entries on lines of their own are read one after the other. -/
theorem reads_lines {write : ε → List Char} {es : List ε}
    (h : ∀ e ∈ es, Reads reader (write e) [e])
    (hstart : ∀ e ∈ es, ∃ x w, write e = x :: w ∧ isSpace x = false) :
    Reads reader (['\n'].intercalate (es.map write)) es := by
  induction es with
  | nil => exact reads_nil
  | cons e es ih =>
    have he := h e List.mem_cons_self
    have hes := ih (fun f hf => h f (List.mem_cons_of_mem _ hf)) fun f hf =>
      hstart f (List.mem_cons_of_mem _ hf)
    cases es with
    | nil => simpa using he
    | cons f es =>
      obtain ⟨x, w, hwrite, hx⟩ := hstart f (List.mem_cons_of_mem _ List.mem_cons_self)
      obtain ⟨v, hv⟩ : ∃ v, ['\n'].intercalate ((f :: es).map write) = x :: v := by
        cases es <;> simp [hwrite]
      rw [hv] at hes
      have hblank : ∀ c ∈ ['\n'], isSpace c = true := List.forall_mem_singleton.2 rfl
      have hline := he.append (hes.space hreader hx hblank (List.cons_ne_nil _ _))
      rw [← hv] at hline
      rw [List.map_cons, List.map_cons, List.intercalate_cons_cons, List.append_assoc]
      exact hline

/-- Entries with a line break behind each are read one after the other, whatever white space leads. -/
theorem readsInside_terminated {ι : Type} {entry : ι → ε} {write : ι → List Char} {items : List ι}
    (h : ∀ i ∈ items, Reads reader (write i) [entry i])
    (hstart : ∀ i ∈ items, ∃ x w, write i = x :: w ∧ isSpace x = false) {blanks : List Char}
    (hblanks : ∀ c ∈ blanks, isSpace c = true) (hne : blanks ≠ []) :
    ReadsInside reader (blanks ++ items.flatMap fun i => write i ++ ['\n']) (items.map entry) := by
  induction items generalizing blanks with
  | nil =>
    rw [List.flatMap_nil, List.append_nil]
    exact readsInside_space hreader hblanks hne
  | cons i items ih =>
    have hbreak : ∀ c ∈ ['\n'], isSpace c = true := List.forall_mem_singleton.2 rfl
    have hitems := ih (fun j hj => h j (List.mem_cons_of_mem _ hj))
      (fun j hj => hstart j (List.mem_cons_of_mem _ hj)) hbreak (List.cons_ne_nil _ _)
    have hi := h i List.mem_cons_self
    obtain ⟨x, w, hwrite, hx⟩ := hstart i List.mem_cons_self
    rw [hwrite] at hi
    have hline := (hi.space hreader hx hblanks hne).append_inside hitems
    simpa [hwrite] using hline

end

/-! ## Inert pieces -/

theorem isLeaf_of_mem_leaves {v : List Char} (hv : Token.Inert v) {c : Component} (hc : c ∈ leaves v)
    {kind : Token.Kind} (hkind : kind.isInert = false) : c.isLeaf kind = false := by
  obtain ⟨t, ht, rfl⟩ := List.mem_map.1 hc
  have hinert := Token.isInert_of_mem_row hv ht
  rw [isLeaf, beq_eq_false_iff_ne]
  rintro rfl
  rw [hkind] at hinert
  cases hinert

theorem isCurly_of_mem_leaves {v : List Char} {c : Component} (hc : c ∈ leaves v) :
    c.isCurly = false := by
  obtain ⟨t, -, rfl⟩ := List.mem_map.1 hc
  rfl

theorem flatMap_text_leaves (v : List Char) : (leaves v).flatMap text = v := by
  rw [leaves, List.flatMap_map]
  have htext : ∀ t : Token, text (.leaf t) = t.text := fun t => by simp [text, tokens]
  simp only [htext, Token.flatMap_text_row]

theorem plainText_leaves {v : List Char} (hv : Token.Inert v) : plainText (leaves v) = v := by
  have hall : ∀ c ∈ leaves v, (!c.isComment) = true := fun c hc => by
    rw [isComment, isLeaf_of_mem_leaves hv hc rfl]
    rfl
  rw [plainText, List.filter_eq_self.2 hall, flatMap_text_leaves]

theorem trimmedText_leaves {v : List Char} (hv : Token.Inert v) :
    trimmedText (leaves v) = String.ofList (Text.trim v) := by
  rw [trimmedText, plainText_leaves hv]

/-! ## Declarations -/

theorem readChunks_cons (chunk : List Component) (chunks : List (List Component)) :
    readChunks (chunk :: chunks) = readChunk chunk >>= fun entries =>
      (entries ++ ·) <$> readChunks chunks := rfl

/-- What stands in front of the next semicolon is a chunk of its own. -/
theorem readDeclarations_append {front : List Component} {c : Component}
    (hfront : ∀ d ∈ front, d.isSemicolon = false) (hc : c.isSemicolon = true)
    (cs : List Component) :
    readDeclarations (front ++ c :: cs) = readChunk front >>= fun entries =>
      (entries ++ ·) <$> readDeclarations cs := by
  rw [readDeclarations, splitOn_append hfront hc, readChunks_cons, readDeclarations]

/-- What leads a chunk and is read by itself can be read before the chunk. -/
theorem readDeclarations_cons {c : Component} {entries : List DeclarationEntry}
    (hsemicolon : c.isSemicolon = false)
    (hread : ∀ cs, readChunk (c :: cs) = (entries ++ ·) <$> readChunk cs) (cs : List Component) :
    readDeclarations (c :: cs) = (entries ++ ·) <$> readDeclarations cs := by
  have hc : ¬c.isSemicolon = true := by simp [hsemicolon]
  obtain ⟨chunk, chunks, hsplit⟩ := List.exists_cons_of_ne_nil (splitOn_ne_nil isSemicolon cs)
  have hcons : splitOn isSemicolon (c :: cs) = (c :: chunk) :: chunks := by
    rw [splitOn, if_neg hc, hsplit]
  rw [readDeclarations, hcons, readDeclarations, hsplit, readChunks_cons, readChunks_cons, hread]
  simp only [map_bind, bind_map_left, Functor.map_map, List.append_assoc]

theorem passesOver_readDeclarations : PassesOver readDeclarations := by
  refine ⟨rfl, fun t cs ht => ?_⟩
  have hspace : (leaf t).isWhiteSpace = true := beq_iff_eq.2 ht
  have hsemicolon : (leaf t).isSemicolon = false := by rw [isSemicolon, isLeaf, ht]; rfl
  have hread : ∀ cs, readChunk (leaf t :: cs) = ([] ++ ·) <$> readChunk cs := fun cs => by
    rw [readChunk, if_pos hspace]
    exact (id_map (readChunk cs)).symm
  rw [readDeclarations_cons hsemicolon hread]
  exact id_map (readDeclarations cs)

/-! ### One declaration -/

/-- The component of a property. -/
def propertyLeaf (name : List Char) : Component := .leaf ⟨.ident, name, .start⟩

def colonLeaf : Component := .leaf ⟨.colon, [':'], .start⟩

def semicolonLeaf : Component := .leaf ⟨.semicolon, [';'], .start⟩

section

variable {name value : List Char} (hvalue : Token.Inert value)

include hvalue

theorem isSemicolon_declaration :
    ∀ c ∈ propertyLeaf name :: colonLeaf :: leaves value, c.isSemicolon = false := by
  intro c hc
  rcases List.mem_cons.1 hc with rfl | hc
  · rfl
  rcases List.mem_cons.1 hc with rfl | hc
  · rfl
  · exact isLeaf_of_mem_leaves hvalue hc rfl

variable (hne : name ≠ []) (hblank : ∀ c ∈ name, Text.isBlank c = false)

include hne hblank

theorem ofComponents?_declaration :
    Declaration.ofComponents? (propertyLeaf name :: colonLeaf :: leaves value) =
      some ⟨String.ofList name, String.ofList (Text.trim value)⟩ := by
  have htrim : Text.trim name = name := Text.trim_of_solid hblank
  have hnonempty : name.isEmpty = false := by simp [hne]
  have hany : name.any Text.isBlank = false := by
    rw [List.any_eq_false]
    exact fun c hc => by simp [hblank c hc]
  have htext : (propertyLeaf name).text = name := by simp [propertyLeaf, text, tokens]
  have hproperty : Declaration.isPropertyPart (propertyLeaf name) = true := rfl
  have hcolon : Declaration.isPropertyPart colonLeaf = false := rfl
  unfold Declaration.ofComponents?
  simp only [List.takeWhile_cons, List.dropWhile_cons, hproperty, hcolon, if_true,
    Bool.false_eq_true, if_false, List.flatMap_cons, List.flatMap_nil, List.append_nil, htext, htrim,
    hnonempty, hany, trimmedText_leaves hvalue]
  rfl

theorem readDeclarations_declaration (cs : List Component) :
    readDeclarations ((propertyLeaf name :: colonLeaf :: leaves value) ++ semicolonLeaf :: cs) =
      ([.declaration ⟨String.ofList name, String.ofList (Text.trim value)⟩] ++ ·) <$>
        readDeclarations cs := by
  have hspace : ¬(propertyLeaf name).isWhiteSpace = true := Bool.false_ne_true
  have hcomment : ¬(propertyLeaf name).isComment = true := Bool.false_ne_true
  have hchunk : readChunk (propertyLeaf name :: colonLeaf :: leaves value) =
      pure [.declaration ⟨String.ofList name, String.ofList (Text.trim value)⟩] := by
    rw [readChunk, if_neg hspace, if_neg hcomment, ofComponents?_declaration hvalue hne hblank]
  rw [readDeclarations_append (isSemicolon_declaration hvalue) rfl, hchunk, pure_bind]

end

/-- A declaration is read back from its property and the text of its value. -/
theorem reads_declaration {name value : List Char} (hname : Token.IsName name)
    (halpha : ∃ c, name.head? = some c ∧ c.isAlpha = true)
    (hblank : ∀ c ∈ name, Text.isBlank c = false) (hvalue : Token.Inert value) :
    Reads readDeclarations (name ++ ':' :: (value ++ [';']))
      [.declaration ⟨String.ofList name, String.ofList (Text.trim value)⟩] := by
  obtain ⟨first, hfirst, halpha⟩ := halpha
  have hne : name ≠ [] := by
    rintro rfl
    cases hfirst
  have hbehind := (spells_mark Token.stop_semicolon rfl rfl).inert Token.stop_semicolon hvalue
  have hspells : Spells (name ++ ':' :: (value ++ [';']))
      (propertyLeaf name :: (colonLeaf :: (leaves value ++ [semicolonLeaf]))) :=
    ((spells_mark Token.stop_colon rfl rfl).append hbehind).name hname hfirst halpha rfl
      (by decide) (by decide)
  refine ⟨_, hspells, fun ds => ?_⟩
  have hlevel : propertyLeaf name :: (colonLeaf :: (leaves value ++ [semicolonLeaf])) ++ ds =
      (propertyLeaf name :: colonLeaf :: leaves value) ++ semicolonLeaf :: ds := by simp
  rw [hlevel, readDeclarations_declaration hvalue hne hblank]

theorem passesOver_readFrames (stop : Location) : PassesOver (readFrames stop none) := by
  refine ⟨by rw [readFrames], fun t cs ht => ?_⟩
  have hspace : ((leaf t).isWhiteSpace || (leaf t).isSemicolon) = true := by
    rw [isWhiteSpace, isLeaf, ht]
    rfl
  rw [readFrames, if_pos hspace]

theorem passesOver_readRules (stop : Location) : PassesOver (readRules stop none) := by
  refine ⟨readRules_nil stop none, fun t cs ht => ?_⟩
  have hcut : Statement.cut stop none (leaf t) cs = ⟨.flat .gap, none, cs⟩ := by
    simp only [Statement.cut, ht]
  rw [readRules_cons, hcut]
  exact (pure_bind _ _).trans (id_map (readRules stop none cs))

/-! ## Comments -/

section

variable {body : List Char}

theorem endsComment_comment (body : List Char) :
    Token.endsComment ('/' :: '*' :: body ++ Token.commentEnd) = true := by
  have hend : Token.commentEnd <:+ '/' :: '*' :: body ++ Token.commentEnd := List.suffix_append _ _
  unfold Token.endsComment
  rw [Bool.and_eq_true, decide_eq_true_eq, List.isSuffixOf_iff_suffix]
  refine ⟨?_, hend⟩
  simp [Token.commentEnd]

theorem commentBody_comment (body : List Char) :
    Token.commentBody ('/' :: '*' :: body ++ Token.commentEnd) = body := by
  unfold Token.commentBody
  rw [endsComment_comment]
  simp [Token.commentEnd]

theorem readComment_comment (body : List Char) (place : Location) :
    readComment (Token.commentBody ('/' :: '*' :: body ++ Token.commentEnd))
      ('/' :: '*' :: body ++ Token.commentEnd) place = pure (some (String.ofList body)) := by
  rw [readComment, endsComment_comment, commentBody_comment]
  rfl

/-- The component of a comment. -/
def commentLeaf (body : List Char) : Component :=
  .leaf ⟨.comment, '/' :: '*' :: body ++ Token.commentEnd, .start⟩

theorem text_commentLeaf (body : List Char) :
    (commentLeaf body).text = '/' :: '*' :: body ++ Token.commentEnd := by
  simp [commentLeaf, text, tokens]

variable (h : ¬Token.commentEnd <:+: body)

include h

theorem reads_comment_declarations : Reads readDeclarations
    ('/' :: '*' :: body ++ Token.commentEnd) [.comment (String.ofList body)] := by
  refine ⟨[commentLeaf body], spells_comment h, fun ds => readDeclarations_cons rfl (fun cs => ?_) ds⟩
  have hspace : ¬(commentLeaf body).isWhiteSpace = true := Bool.false_ne_true
  have hcomment : (commentLeaf body).isComment = true := rfl
  rw [readChunk, if_neg hspace, if_pos hcomment, text_commentLeaf, readComment_comment]
  rfl

theorem reads_comment_frames (stop : Location) : Reads (readFrames stop none)
    ('/' :: '*' :: body ++ Token.commentEnd) [.comment (String.ofList body)] := by
  refine ⟨[commentLeaf body], spells_comment h, fun ds => ?_⟩
  have hspace : ¬((commentLeaf body).isWhiteSpace || (commentLeaf body).isSemicolon) = true :=
    Bool.false_ne_true
  have hcomment : (commentLeaf body).isComment = true := rfl
  have htext : Skipped.textOf none (commentLeaf body) = (commentLeaf body).text := rfl
  rw [List.singleton_append, readFrames, if_neg hspace, if_pos hcomment, htext, text_commentLeaf,
    readComment_comment]
  rfl

theorem reads_comment_rules (stop : Location) : Reads (readRules stop none)
    ('/' :: '*' :: body ++ Token.commentEnd) [.comment (String.ofList body)] := by
  refine ⟨[commentLeaf body], spells_comment h, fun ds => ?_⟩
  have hcut : Statement.cut stop none (commentLeaf body) ds =
      ⟨.flat (.comment (Token.commentBody ('/' :: '*' :: body ++ Token.commentEnd))
        (Skipped.textOf none (commentLeaf body)) .start), none, ds⟩ := rfl
  have htext : Skipped.textOf none (commentLeaf body) = (commentLeaf body).text := rfl
  rw [List.singleton_append]
  refine readRules_of_cut hcut ?_
  simp only [Statement.read, Statement.Flat.read, htext, text_commentLeaf, readComment_comment]
  rfl

end

/-! ## Selectors -/

theorem leaves_append_cons {x : Char} (hx : Token.Stop x) {v : List Char} (hv : Token.Inert v)
    (w : List Char) :
    leaves (v ++ x :: w) = leaves v ++ .leaf ⟨Token.singleKind x, [x], .start⟩ :: leaves w := by
  rw [leaves, Token.row_append_of_inert hx hv, Token.row_of_stop hx, List.map_append, List.map_cons]
  rfl

theorem isComma_of_mem_leaves {v : List Char} (hcomma : ',' ∉ v) {c : Component}
    (hc : c ∈ leaves v) : c.isComma = false := by
  obtain ⟨t, ht, rfl⟩ := List.mem_map.1 hc
  rw [isComma, isLeaf, beq_eq_false_iff_ne]
  intro hkind
  have htext := Token.text_of_comma ht hkind
  exact hcomma (Token.mem_of_mem_row ht (by rw [htext]; exact List.mem_singleton.2 rfl))

/-- An inert piece without a comma is one selector. -/
theorem selectorsOf_leaves_of_not_mem {v : List Char} (hv : Token.Inert v) (h : ',' ∉ v) :
    selectorsOf none (leaves v) = [String.ofList (Text.trim v)] := by
  rw [selectorsOf_none, splitOn_of_forall fun c hc => isComma_of_mem_leaves h hc,
    List.map_singleton, plainText_leaves hv]

/-- The first comma behind an inert piece ends a selector. -/
theorem selectorsOf_leaves_append {v : List Char} (hv : Token.Inert v) (h : ',' ∉ v)
    (w : List Char) : selectorsOf none (leaves (v ++ ',' :: w)) =
      String.ofList (Text.trim v) :: selectorsOf none (leaves w) := by
  rw [selectorsOf_none, selectorsOf_none, leaves_append_cons Token.stop_comma hv,
    splitOn_append (fun c hc => isComma_of_mem_leaves h hc) rfl, List.map_cons, plainText_leaves hv]

/-- Selectors are read back from a list with a comma and a blank between them. -/
theorem selectorsOf_leaves {s : List Char} {ss : List (List Char)} {lead behind : List Char}
    (hinert : Token.Inert (lead ++ ([',', ' '].intercalate (s :: ss) ++ behind)))
    (hlead : ∀ c ∈ lead, c = ' ') (hbehind : ∀ c ∈ behind, c = ' ')
    (hcomma : ∀ p ∈ s :: ss, ',' ∉ p) (htrim : ∀ p ∈ s :: ss, Text.trim p = p) :
    selectorsOf none (leaves (lead ++ ([',', ' '].intercalate (s :: ss) ++ behind))) =
      (s :: ss).map String.ofList := by
  have hblank : ∀ {cs : List Char}, (∀ c ∈ cs, c = ' ') → ∀ c ∈ cs, Text.isBlank c = true :=
    fun h c hc => by rw [h c hc]; rfl
  have hnone : ∀ {cs : List Char}, (∀ c ∈ cs, c = ' ') → ',' ∉ cs := fun h hc =>
    absurd (h _ hc) (by decide)
  induction ss generalizing s lead with
  | nil =>
    rw [List.intercalate_singleton] at hinert ⊢
    have hs := hcomma s List.mem_cons_self
    have hout : ',' ∉ lead ++ (s ++ behind) := by
      simp only [List.mem_append, not_or]
      exact ⟨hnone hlead, hs, hnone hbehind⟩
    rw [selectorsOf_leaves_of_not_mem hinert hout, Text.trim_append_left (hblank hlead),
      Text.trim_append_right (hblank hbehind), htrim s List.mem_cons_self]
    rfl
  | cons p ss ih =>
    have hsplit : lead ++ ([',', ' '].intercalate (s :: p :: ss) ++ behind) =
        (lead ++ s) ++ ',' :: ([' '] ++ ([',', ' '].intercalate (p :: ss) ++ behind)) := by
      simp [List.intercalate_cons_cons]
    rw [hsplit] at hinert ⊢
    have hfirst : Token.Inert (lead ++ s) := hinert.part (List.prefix_append _ _).isInfix
    have hothers : Token.Inert ([' '] ++ ([',', ' '].intercalate (p :: ss) ++ behind)) :=
      hinert.part ((List.suffix_cons _ _).trans (List.suffix_append _ _)).isInfix
    have hout : ',' ∉ lead ++ s := by
      rw [List.mem_append, not_or]
      exact ⟨hnone hlead, hcomma s List.mem_cons_self⟩
    have hrest := ih hothers (fun c hc => List.mem_singleton.1 hc)
      (fun q hq => hcomma q (List.mem_cons_of_mem _ hq))
      fun q hq => htrim q (List.mem_cons_of_mem _ hq)
    rw [selectorsOf_leaves_append hfirst hout, hrest, Text.trim_append_left (hblank hlead),
      htrim s List.mem_cons_self]
    rfl

/-! ## Bodies -/

theorem untilCurly_leaves (v : List Char) (cs ds : List Component) :
    untilCurly (leaves v ++ curly cs :: ds) = leaves v := by
  have hpass : ∀ c ∈ leaves v, (!c.isCurly) = true := fun c hc => by
    rw [isCurly_of_mem_leaves hc]
    rfl
  rw [untilCurly, List.takeWhile_append_of_pos hpass]
  simp [curly, isCurly, isBlock]

theorem fromCurly_leaves (v : List Char) (cs ds : List Component) :
    fromCurly (leaves v ++ curly cs :: ds) = curly cs :: ds := by
  have hpass : ∀ c ∈ leaves v, (!c.isCurly) = true := fun c hc => by
    rw [isCurly_of_mem_leaves hc]
    rfl
  rw [fromCurly, List.dropWhile_append_of_pos hpass]
  simp [curly, isCurly, isBlock]

section

variable {v : List Char} (hv : Token.Inert v) {c : Component} (hc : c.isEnd = true)

include hv

theorem isEnd_of_mem_leaves {d : Component} (hd : d ∈ leaves v) : d.isEnd = false := by
  rw [isEnd, isCurly_of_mem_leaves hd, isSemicolon, isLeaf_of_mem_leaves hv hd rfl]
  rfl

include hc

theorem untilEnd_leaves (ds : List Component) : untilEnd (leaves v ++ c :: ds) = leaves v :=
  untilEnd_of_isEnd (fun _ hd => isEnd_of_mem_leaves hv hd) hc ds

theorem fromEnd_leaves (ds : List Component) : fromEnd (leaves v ++ c :: ds) = c :: ds :=
  fromEnd_of_isEnd (fun _ hd => isEnd_of_mem_leaves hv hd) hc ds

end

theorem ofLevel_curly (stop : Location) (cs ds : List Component) :
    Body.ofLevel stop (curly cs :: ds) = (.block cs .start true, ds) := rfl

theorem read_curly {α : Type} (construct : Construct) {cs : List Component} {inside : Reading α} {a : α}
    (h : inside = pure a) :
    Body.read construct (.block cs .start true) inside = pure (some a) := by
  rw [Body.read_block, h]
  rfl

/-- A piece of text and the block behind it. -/
theorem spells_body {v w : List Char} {cs : List Component} (hv : Token.Inert v)
    (h : SpellsInside w cs) :
    Spells (v ++ ('\x7b' :: (w ++ ['\x7d']))) (leaves v ++ [curly cs]) :=
  h.curly.inert Token.stop_openingCurly hv

/-! ## Style rules and frames -/

/-- What starts with a piece of a rule is cut off as a style rule. -/
theorem Statement.cut_piece (stop : Location) {t : Token} (hinert : t.kind.isInert = true)
    (hlead : t.kind.isLead = false) (cs : List Component) :
    cut stop none (.leaf t) cs = cutStyle stop none (.leaf t) cs := by
  unfold cut
  dsimp only
  split
  case h_8 => rfl
  all_goals
    rename_i hkind
    rw [hkind] at hinert hlead
    first
      | exact absurd hinert Bool.false_ne_true
      | exact absurd hlead.symm Bool.false_ne_true

section

variable {x : Char} {v w : List Char} {entries : List DeclarationEntry}
  (hv : Token.Inert (x :: v)) (hx : Token.startsPiece x = true)

include hv hx

/-- The components of a piece of a rule start with one that says nothing of its own, and the block
behind them is found from there. -/
theorem exists_leaves_cons : ∃ (t : Token) (ts : List Component),
    leaves (x :: v) = .leaf t :: ts ∧ t.kind.isInert = true ∧ t.kind.isLead = false ∧
      ∀ cs ds, untilCurly (.leaf t :: (ts ++ curly cs :: ds)) = .leaf t :: ts ∧
        fromCurly (.leaf t :: (ts ++ curly cs :: ds)) = curly cs :: ds := by
  obtain ⟨t, ts, hrow, hinert, hlead⟩ := Token.exists_row_cons hv hx
  have hleaves : leaves (x :: v) = .leaf t :: ts.map leaf := by rw [leaves, hrow]; rfl
  refine ⟨t, ts.map leaf, hleaves, hinert, hlead, fun cs ds => ?_⟩
  have huntil := untilCurly_leaves (x :: v) cs ds
  have hfrom := fromCurly_leaves (x :: v) cs ds
  rw [hleaves, List.cons_append] at huntil hfrom
  exact ⟨huntil, hfrom⟩

variable (hselectors : (selectorsOf none (leaves (x :: v))).all (· == "") = false)
  (h : ReadsInside readDeclarations w entries)

include hselectors h

theorem reads_style (stop : Location) :
    Reads (readRules stop none) (x :: v ++ ('\x7b' :: (w ++ ['\x7d'])))
      [.style (selectorsOf none (leaves (x :: v))) entries] := by
  obtain ⟨cs, hspells, hread⟩ := h
  obtain ⟨t, ts, hleaves, hinert, hlead, hblock⟩ := exists_leaves_cons hv hx
  refine ⟨_, spells_body hv hspells, fun ds => ?_⟩
  obtain ⟨huntil, hfrom⟩ := hblock cs ds
  rw [hleaves] at hselectors ⊢
  rw [List.append_assoc, List.singleton_append, List.cons_append]
  have hcut : Statement.cut stop none (.leaf t) (ts ++ curly cs :: ds) =
      ⟨.flat (.style (selectorsOf none (.leaf t :: ts)) (.block cs .start true)), none, ds⟩ := by
    rw [Statement.cut_piece stop hinert hlead, Statement.cutStyle]
    dsimp only
    rw [huntil, hfrom, ofLevel_curly, if_neg (by simp [hselectors, isCurly, isBlock])]
  refine readRules_of_cut hcut ?_
  simp only [Statement.read, Statement.Flat.read, Body.contents, read_curly _ hread, pure_bind]
  rfl

theorem reads_frame (stop : Location) :
    Reads (readFrames stop none) (x :: v ++ ('\x7b' :: (w ++ ['\x7d'])))
      [.frame ⟨selectorsOf none (leaves (x :: v)), entries⟩] := by
  obtain ⟨cs, hspells, hread⟩ := h
  obtain ⟨t, ts, hleaves, hinert, hlead, hblock⟩ := exists_leaves_cons hv hx
  refine ⟨_, spells_body hv hspells, fun ds => ?_⟩
  obtain ⟨huntil, hfrom⟩ := hblock cs ds
  have hgap : ¬((leaf t).isWhiteSpace || (leaf t).isSemicolon) = true := by
    intro hgap
    rcases Bool.or_eq_true_iff.1 hgap with hkind | hkind
    · rw [beq_iff_eq.1 hkind] at hlead
      cases hlead
    · rw [beq_iff_eq.1 hkind] at hinert
      cases hinert
  have hcomment : ¬(leaf t).isComment = true := by
    intro hkind
    rw [beq_iff_eq.1 hkind] at hinert
    cases hinert
  rw [hleaves] at hselectors ⊢
  rw [List.append_assoc, List.singleton_append, List.cons_append, readFrames, if_neg hgap,
    if_neg hcomment]
  dsimp only
  rw [huntil, hfrom, ofLevel_curly, dif_neg (by simp [hselectors, isCurly, isBlock])]
  simp only [readFrame, Body.contents, read_curly _ hread, pure_bind]
  rfl

end

/-! ## At-rules -/

/-- The token of an at-keyword. -/
def keywordToken (name : List Char) : Token := ⟨.atKeyword, '@' :: name, .start⟩

section

variable {name v : List Char} (hname : Token.IsName name) (hv : Token.Inert (' ' :: v))

include hname hv

theorem spells_atRule {w : List Char} {cs : List Component} (h : SpellsInside w cs) :
    Spells ('@' :: name ++ ' ' :: (v ++ ('\x7b' :: (w ++ ['\x7d']))))
      (.leaf (keywordToken name) :: (leaves (' ' :: v) ++ [curly cs])) :=
  (spells_body hv h).keyword hname rfl (by decide)

theorem spells_statement :
    Spells ('@' :: name ++ ' ' :: (v ++ [';'])) (.leaf (keywordToken name) ::
      (leaves (' ' :: v) ++ [semicolonLeaf])) :=
  ((spells_mark Token.stop_semicolon rfl rfl).inert Token.stop_semicolon hv).keyword hname rfl
    (by decide)

end

theorem Statement.cut_keywordToken (stop : Location) (name : List Char) {cs : List Component}
    {form : AtRule.Form} (h : AtRule.form? (keywordToken name) cs = some form) :
    cut stop none (.leaf (keywordToken name)) cs = cutForm stop (keywordToken name).stop cs form := by
  have hcut : cut stop none (.leaf (keywordToken name)) cs =
      cutAtRule stop none (keywordToken name) (.leaf (keywordToken name)) cs := rfl
  rw [hcut, cutAtRule_eq, h]

section

variable {name v w : List Char} (hname : Token.IsName name) (hv : Token.Inert (' ' :: v))
  (stop : Location)

include hname hv

/-- An at-rule with a block is read back from its text if its form is cut off right behind the block
and what is cut off is read by what is inside. -/
theorem reads_block {ε : Type} {reader : List Component → Reading (List ε)} {entries : List ε}
    {form : AtRule.Form} {rules : List Rule} (h : ReadsInside reader w entries)
    (hform : ∀ cs, AtRule.form? (keywordToken name) cs = some form)
    (hcut : ∀ cs, reader cs = pure entries → ∃ statement : Statement, statement.read = pure rules ∧
      ∀ ds, Statement.cutForm stop (keywordToken name).stop (leaves (' ' :: v) ++ curly cs :: ds)
        form = ⟨statement, none, ds⟩) :
    Reads (readRules stop none) ('@' :: name ++ ' ' :: (v ++ ('\x7b' :: (w ++ ['\x7d'])))) rules := by
  obtain ⟨cs, hspells, hreader⟩ := h
  obtain ⟨statement, hread, hcut⟩ := hcut cs hreader
  refine ⟨_, spells_atRule hname hv hspells, fun ds => ?_⟩
  rw [List.cons_append, List.append_assoc, List.singleton_append]
  exact readRules_of_cut ((Statement.cut_keywordToken stop name (hform _)).trans (hcut ds)) hread

theorem reads_group {head : String → Group} {rules : List Rule}
    (hform : ∀ cs, AtRule.form? (keywordToken name) cs = some (.group head))
    (h : ReadsInside (readRules .start none) w rules) :
    Reads (readRules stop none) ('@' :: name ++ ' ' :: (v ++ ('\x7b' :: (w ++ ['\x7d']))))
      [.group (head (String.ofList (Text.trim (' ' :: v)))) rules] := by
  refine reads_block hname hv stop h hform fun cs hread =>
    ⟨.group (head (String.ofList (Text.trim (' ' :: v)))) (.block cs .start true), ?_, ?_⟩
  · simp only [Statement.read, Body.contents, Body.stop, read_curly _ hread, pure_bind]
    rfl
  · intro ds
    rw [Statement.cutForm, Statement.cutGroup, untilEnd_leaves hv rfl, fromEnd_leaves hv rfl,
      ofLevel_curly, trimmedText_leaves hv]

theorem reads_keyframes {vendor : Option String} {frames : List FrameEntry}
    (hform : ∀ cs, AtRule.form? (keywordToken name) cs = some (.keyframes vendor))
    (htext : String.ofList (Text.trim (' ' :: v)) ≠ "")
    (h : ReadsInside (readFrames .start none) w frames) :
    Reads (readRules stop none) ('@' :: name ++ ' ' :: (v ++ ('\x7b' :: (w ++ ['\x7d']))))
      [.keyframes (String.ofList (Text.trim (' ' :: v))) vendor frames] := by
  refine reads_block hname hv stop h hform fun cs hread =>
    ⟨.flat (.keyframes (String.ofList (Text.trim (' ' :: v))) vendor (.block cs .start true)), ?_, ?_⟩
  · simp only [Statement.read, Statement.Flat.read, Body.contents, Body.stop, read_curly _ hread,
      pure_bind]
    rfl
  · intro ds
    rw [Statement.cutForm, Statement.cutKeyframes]
    dsimp only
    rw [untilEnd_leaves hv rfl, fromEnd_leaves hv rfl, ofLevel_curly, trimmedText_leaves hv,
      if_neg (by simpa using htext)]

theorem reads_fontFace {entries : List DeclarationEntry}
    (hform : ∀ cs, AtRule.form? (keywordToken name) cs = some .fontFace)
    (h : ReadsInside readDeclarations w entries) :
    Reads (readRules stop none) ('@' :: name ++ ' ' :: (v ++ ('\x7b' :: (w ++ ['\x7d']))))
      [.fontFace entries] := by
  refine reads_block hname hv stop h hform fun cs hread =>
    ⟨.flat (.fontFace (.block cs .start true)), ?_, ?_⟩
  · simp only [Statement.read, Statement.Flat.read, Body.contents, read_curly _ hread, pure_bind]
    rfl
  · intro ds
    rw [Statement.cutForm, fromEnd_leaves hv rfl, ofLevel_curly]

theorem reads_page {entries : List DeclarationEntry}
    (hform : ∀ cs, AtRule.form? (keywordToken name) cs = some .page)
    (h : ReadsInside readDeclarations w entries) :
    Reads (readRules stop none) ('@' :: name ++ ' ' :: (v ++ ('\x7b' :: (w ++ ['\x7d']))))
      [.page ((selectorsOf none (leaves (' ' :: v))).filter (· != "")) entries] := by
  let selectors := (selectorsOf none (leaves (' ' :: v))).filter (· != "")
  refine reads_block hname hv stop h hform fun cs hread =>
    ⟨.flat (.page selectors (.block cs .start true)), ?_, ?_⟩
  · simp only [Statement.read, Statement.Flat.read, Body.contents, read_curly _ hread, pure_bind]
    rfl
  · intro ds
    rw [Statement.cutForm, untilCurly_leaves, fromCurly_leaves, ofLevel_curly]

omit hname in
theorem statement?_leaves (htext : String.ofList (Text.trim (' ' :: v)) ≠ "")
    (ds : List Component) :
    AtRule.statement? (leaves (' ' :: v) ++ semicolonLeaf :: ds) =
      some (String.ofList (Text.trim (' ' :: v)), ds) := by
  have hsemicolon : semicolonLeaf.isSemicolon = true := rfl
  unfold AtRule.statement?
  dsimp only
  rw [untilEnd_leaves hv rfl, fromEnd_leaves hv rfl, trimmedText_leaves hv,
    if_neg (by simpa using htext), AtRule.afterEnd?, if_pos hsemicolon]
  rfl

/-- An at-rule without a block is read back from its text. -/
theorem reads_whole {rule : Rule} (htext : String.ofList (Text.trim (' ' :: v)) ≠ "")
    (hform : ∀ cs rest,
      AtRule.statement? cs = some (String.ofList (Text.trim (' ' :: v)), rest) →
        AtRule.form? (keywordToken name) cs = some (.whole rule rest)) :
    Reads (readRules stop none) ('@' :: name ++ ' ' :: (v ++ [';'])) [rule] := by
  refine ⟨_, spells_statement hname hv, fun ds => ?_⟩
  rw [List.cons_append, List.append_assoc, List.singleton_append]
  have hcut := Statement.cut_keywordToken stop name (hform _ _ (statement?_leaves hv htext ds))
  exact readRules_of_cut hcut rfl

end

end Restyle.Css
