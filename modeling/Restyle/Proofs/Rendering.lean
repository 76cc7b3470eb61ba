import Restyle.Proofs.Boundaries
import Restyle.Proofs.Plain

/-!
# Style sheets are read back from their plain rendering

`Rule.render` writes a rule down: selectors and preludes in front of blocks in curly brackets, a
semicolon behind every declaration, every entry of a level on a line of its own.  `Rule.Plain` says
that all the texts of a rule are plain.  A strict reader finds the very rules in what has been written
(`Stylesheet.parse_render`), by induction on the rules: each is read off its own text and the texts of
the rules in it.
-/

namespace Restyle.Css

/-! ## Rendering -/

/-- Texts on lines of their own. -/
def lines (texts : List String) : String :=
  "\n".intercalate texts

def renderComment (text : String) : String :=
  "/*" ++ text ++ "*/"

def DeclarationEntry.render : DeclarationEntry → String
  | .declaration d => d.property ++ ":" ++ d.value ++ ";"
  | .comment text => renderComment text

def renderBlock (body : List String) : String :=
  " \x7b" ++ lines body ++ "\x7d"

/-- Selectors, or the moments of a frame, with a declaration block. -/
def renderStyle (selectors : List String) (declarations : List DeclarationEntry) : String :=
  ", ".intercalate selectors ++ renderBlock (declarations.map DeclarationEntry.render)

def FrameEntry.render : FrameEntry → String
  | .frame f => renderStyle f.moments f.declarations
  | .comment text => renderComment text

/-- An at-keyword and the text behind it. -/
def renderPrelude (keyword text : String) : String :=
  "@" ++ keyword ++ if text = "" then "" else " " ++ text

def Group.render : Group → String
  | .media query => renderPrelude "media" query
  | .supports condition => renderPrelude "supports" condition
  | .document matcher vendor => renderPrelude (vendor.getD "" ++ "document") matcher
  | .host => renderPrelude "host" ""

mutual

def Rule.render : Rule → String
  | .style selectors declarations => renderStyle selectors declarations
  | .comment text => renderComment text
  | .group head rules => head.render ++ renderBlock (Rule.renderAll rules)
  | .keyframes name vendor frames =>
    renderPrelude (vendor.getD "" ++ "keyframes") name ++ renderBlock (frames.map FrameEntry.render)
  | .fontFace declarations =>
    renderPrelude "font-face" "" ++ renderBlock (declarations.map DeclarationEntry.render)
  | .page selectors declarations =>
    renderPrelude "page" (", ".intercalate selectors) ++
      renderBlock (declarations.map DeclarationEntry.render)
  | .customMedia name query => renderPrelude "custom-media" (name ++ " " ++ query) ++ ";"
  | .directive d text => renderPrelude d.keyword text ++ ";"

def Rule.renderAll : List Rule → List String
  | [] => []
  | rule :: rules => rule.render :: Rule.renderAll rules

end

theorem Rule.renderAll_eq_map (rules : List Rule) : renderAll rules = rules.map render := by
  induction rules with
  | nil => rfl
  | cons rule rules ih => rw [renderAll, ih, List.map_cons]

/-! ## Plain rules -/

def IsCommentText (text : String) : Prop :=
  ¬Token.commentEnd <:+: text.toList

def DeclarationEntry.Plain : DeclarationEntry → Prop
  | .declaration d => isPlainName d.property = true ∧ (d.value = "" ∨ isPlainText d.value = true)
  | .comment text => IsCommentText text

/-- Selectors or moments: at least one, and all of them plain. -/
def PlainList (texts : List String) : Prop :=
  texts ≠ [] ∧ ∀ t ∈ texts, isPlainText t = true

def FrameEntry.Plain : FrameEntry → Prop
  | .frame f => PlainList f.moments ∧ ∀ e ∈ f.declarations, e.Plain
  | .comment text => IsCommentText text

def Group.Plain : Group → Prop
  | .media query => isPlainText query = true
  | .supports condition => isPlainText condition = true
  | .document matcher vendor => isPlainText matcher = true ∧ ∀ v ∈ vendor, IsVendor v
  | .host => True

/-- Rules of which all texts are plain, to any depth.  Pages need no selectors. -/
inductive Rule.Plain : Rule → Prop
  | style {selectors : List String} {declarations : List DeclarationEntry}
    (hselectors : PlainList selectors) (h : ∀ e ∈ declarations, e.Plain) :
    Plain (.style selectors declarations)
  | comment {text : String} (h : IsCommentText text) : Plain (.comment text)
  | group {head : Group} {rules : List Rule} (hhead : head.Plain) (h : ∀ r ∈ rules, Plain r) :
    Plain (.group head rules)
  | keyframes {name : String} {vendor : Option String} {frames : List FrameEntry}
    (hname : isPlainText name = true) (hvendor : ∀ v ∈ vendor, IsVendor v)
    (h : ∀ f ∈ frames, f.Plain) : Plain (.keyframes name vendor frames)
  | fontFace {declarations : List DeclarationEntry} (h : ∀ e ∈ declarations, e.Plain) :
    Plain (.fontFace declarations)
  | page {selectors : List String} {declarations : List DeclarationEntry}
    (hselectors : ∀ s ∈ selectors, isPlainText s = true) (h : ∀ e ∈ declarations, e.Plain) :
    Plain (.page selectors declarations)
  | customMedia {name query : String} (hname : isPlainName name = true)
    (hquery : isPlainText query = true) : Plain (.customMedia ("--" ++ name) query)
  | directive {directive : Directive} {text : String} (h : isPlainText text = true) :
    Plain (.directive directive text)

/-! ## Lists of entries -/

theorem toList_lines {ε : Type} (write : ε → String) (es : List ε) :
    (lines (es.map write)).toList = ['\n'].intercalate (es.map fun e => (write e).toList) := by
  simp [lines, String.toList_intercalate, Function.comp_def]

/-- The lines of entries that are read back one by one are read back inside a block. -/
theorem readsInside_lines {ε : Type} {reader : List Component → Reading (List ε)}
    (hreader : PassesOver reader) {write : ε → String} {es : List ε}
    (h : ∀ e ∈ es, Reads reader (write e).toList [e])
    (hstart : ∀ e ∈ es, ∃ x w, (write e).toList = x :: w ∧ isSpace x = false) :
    ReadsInside reader (lines (es.map write)).toList es := by
  rw [toList_lines]
  exact (reads_lines hreader h hstart).inside hreader

theorem toList_renderComment (text : String) :
    (renderComment text).toList = '/' :: '*' :: text.toList ++ Token.commentEnd := by
  simp [renderComment, Token.commentEnd]

theorem isSpace_of_isPlainStart {c : Char} (h : isPlainStart c = true) : isSpace c = false :=
  Token.isSpace_of_not_mem (Token.not_mem_of_class (by decide) h)

/-! ## Declarations -/

section

variable {d : Declaration} (hname : isPlainName d.property = true)

include hname

/-- A declaration is read back if its property is plain and nothing has to be trimmed off its value. -/
theorem reads_ofPlainName (hvalue : Token.Inert d.value.toList)
    (htrim : Text.trim d.value.toList = d.value.toList) :
    Reads readDeclarations (d.property.toList ++ ':' :: (d.value.toList ++ [';']))
      [.declaration d] := by
  have hread := reads_declaration (isName_of_isPlainName hname) (head?_of_isPlainName hname)
    (fun c hc => isBlank_of_mem_isPlainName hname hc) hvalue
  rwa [htrim, String.ofList_toList, String.ofList_toList] at hread

theorem exists_cons_ofPlainName (w : List Char) :
    ∃ x v, d.property.toList ++ w = x :: v ∧ isSpace x = false := by
  obtain ⟨c, hc, halpha⟩ := head?_of_isPlainName hname
  obtain ⟨cs, hlist⟩ := List.head?_eq_some_iff.1 hc
  exact ⟨c, cs ++ w, by rw [hlist, List.cons_append], Token.isSpace_of_isAlpha halpha⟩

end

theorem toList_renderDeclaration (d : Declaration) : (DeclarationEntry.declaration d).render.toList =
    d.property.toList ++ ':' :: (d.value.toList ++ [';']) := by
  simp [DeclarationEntry.render]

theorem DeclarationEntry.Plain.reads {e : DeclarationEntry} (h : e.Plain) :
    Reads readDeclarations e.render.toList [e] := by
  cases e with
  | comment text =>
    rw [render, toList_renderComment]
    have hread := reads_comment_declarations h
    rwa [String.ofList_toList] at hread
  | declaration d =>
    obtain ⟨hname, hvalue⟩ := h
    rw [toList_renderDeclaration]
    rcases hvalue with hempty | hplain
    · exact reads_ofPlainName hname (by rw [hempty]; exact Token.inert_nil) (by rw [hempty]; rfl)
    · exact reads_ofPlainName hname
        (inert_of_isPlainOrBlank fun c hc => isPlainOrBlank_of_mem hplain hc)
        (trim_of_isPlainText hplain)

theorem DeclarationEntry.Plain.exists_cons {e : DeclarationEntry} (h : e.Plain) :
    ∃ x w, e.render.toList = x :: w ∧ isSpace x = false := by
  cases e with
  | comment text => exact ⟨'/', _, toList_renderComment text, rfl⟩
  | declaration d =>
    rw [toList_renderDeclaration]
    exact exists_cons_ofPlainName h.1 _

theorem readsInside_declarations {declarations : List DeclarationEntry}
    (h : ∀ e ∈ declarations, e.Plain) :
    ReadsInside readDeclarations (lines (declarations.map DeclarationEntry.render)).toList
      declarations :=
  readsInside_lines passesOver_readDeclarations (fun e he => (h e he).reads)
    fun e he => (h e he).exists_cons

theorem toList_renderBlock (body : List String) :
    (renderBlock body).toList = ' ' :: '\x7b' :: ((lines body).toList ++ ['\x7d']) := by
  simp [renderBlock]

/-! ## Style rules and frames -/

theorem toList_selectors (texts : List String) :
    (", ".intercalate texts).toList = [',', ' '].intercalate (texts.map String.toList) := by
  rw [String.toList_intercalate]
  rfl

section

variable {texts : List String} (h : PlainList texts)

include h

/-- What is written of plain selectors in front of a block is one inert piece. -/
theorem PlainList.exists_piece : ∃ x v, (", ".intercalate texts).toList ++ [' '] = x :: v ∧
    isPlainStart x = true ∧ Token.Inert (x :: v) ∧
    selectorsOf none (Component.leaves (x :: v)) = texts := by
  obtain ⟨hne, hplain⟩ := h
  obtain ⟨t, ts, rfl⟩ := List.exists_cons_of_ne_nil hne
  obtain ⟨x, w, hlist, hx⟩ := exists_cons_of_isPlainText (hplain t List.mem_cons_self)
  have hlead : ∀ c ∈ ([] : List Char), c = ' ' := nofun
  have hbehind : ∀ c ∈ [' '], c = ' ' := List.forall_mem_singleton.2 rfl
  have hselectors := selectorsOf_plain hplain hlead hbehind
  rw [List.nil_append, ← toList_selectors] at hselectors
  obtain ⟨v, hv⟩ : ∃ v, (", ".intercalate (t :: ts)).toList ++ [' '] = x :: v := by
    rw [toList_selectors]
    cases ts <;> simp [hlist, List.intercalate_cons_cons]
  rw [hv] at hselectors
  refine ⟨x, v, hv, hx, inert_of_isPlainOrBlank fun c hc => ?_, hselectors⟩
  rw [← hv] at hc
  rcases List.mem_append.1 hc with hc | hc
  · rw [toList_selectors] at hc
    exact isPlainOrBlank_of_mem_list hplain hc
  · rw [List.mem_singleton.1 hc]
    decide

theorem PlainList.all_eq_empty : texts.all (· == "") = false := by
  obtain ⟨hne, hplain⟩ := h
  obtain ⟨t, ts, rfl⟩ := List.exists_cons_of_ne_nil hne
  rw [List.all_cons, beq_eq_false_iff_ne.2 (ne_empty_of_isPlainText (hplain t List.mem_cons_self)),
    Bool.false_and]

variable {declarations : List DeclarationEntry} (hdeclarations : ∀ e ∈ declarations, e.Plain)
  (stop : Location)

include hdeclarations

theorem PlainList.reads_style :
    Reads (readRules stop none) (renderStyle texts declarations).toList
      [.style texts declarations] := by
  obtain ⟨x, v, hv, hx, hinert, hselectors⟩ := h.exists_piece
  have hread := Css.reads_style hinert (startsPiece_of_isPlainStart hx)
    (by rw [hselectors]; exact h.all_eq_empty) (readsInside_declarations hdeclarations) stop
  rw [hselectors, ← hv] at hread
  simpa [renderStyle, toList_renderBlock] using hread

theorem PlainList.reads_frame :
    Reads (readFrames stop none) (renderStyle texts declarations).toList
      [.frame ⟨texts, declarations⟩] := by
  obtain ⟨x, v, hv, hx, hinert, hselectors⟩ := h.exists_piece
  have hread := Css.reads_frame hinert (startsPiece_of_isPlainStart hx)
    (by rw [hselectors]; exact h.all_eq_empty) (readsInside_declarations hdeclarations) stop
  rw [hselectors, ← hv] at hread
  simpa [renderStyle, toList_renderBlock] using hread

omit hdeclarations in
theorem PlainList.exists_cons :
    ∃ x w, (renderStyle texts declarations).toList = x :: w ∧ isSpace x = false := by
  obtain ⟨x, v, hv, hx, -, -⟩ := h.exists_piece
  refine ⟨x, v ++ '\x7b' :: ((lines (declarations.map DeclarationEntry.render)).toList ++ ['\x7d']),
    ?_, isSpace_of_isPlainStart hx⟩
  rw [← List.cons_append, ← hv]
  simp [renderStyle, toList_renderBlock]

end

section

variable {f : FrameEntry} (h : f.Plain)

include h

theorem FrameEntry.Plain.reads (stop : Location) :
    Reads (readFrames stop none) f.render.toList [f] := by
  cases f with
  | comment text =>
    rw [render, toList_renderComment]
    have hread := reads_comment_frames h stop
    rwa [String.ofList_toList] at hread
  | frame frame => exact h.1.reads_frame h.2 stop

theorem FrameEntry.Plain.exists_cons : ∃ x w, f.render.toList = x :: w ∧ isSpace x = false := by
  cases f with
  | comment text => exact ⟨'/', _, toList_renderComment text, rfl⟩
  | frame frame => exact h.1.exists_cons

end

theorem readsInside_frames {frames : List FrameEntry} (h : ∀ f ∈ frames, f.Plain)
    (stop : Location) :
    ReadsInside (readFrames stop none) (lines (frames.map FrameEntry.render)).toList frames :=
  readsInside_lines (passesOver_readFrames stop) (fun f hf => (h f hf).reads stop)
    fun f hf => (h f hf).exists_cons

/-! ## At-rules -/

/-- What is written behind an at-keyword and a blank, in front of a block. -/
def behindKeyword (text : String) : List Char :=
  if text = "" then [] else text.toList ++ [' ']

theorem toList_atRule (keyword text : String) (body : List String) :
    (renderPrelude keyword text ++ renderBlock body).toList =
      '@' :: keyword.toList ++ ' ' :: (behindKeyword text ++
        ('\x7b' :: ((lines body).toList ++ ['\x7d']))) := by
  unfold renderPrelude behindKeyword
  split <;> simp [toList_renderBlock]

theorem toList_statement {keyword text : String} (h : text ≠ "") :
    (renderPrelude keyword text ++ ";").toList =
      '@' :: keyword.toList ++ ' ' :: (text.toList ++ [';']) := by
  unfold renderPrelude
  rw [if_neg h]
  simp

theorem inert_behindKeyword {text : String} (h : ∀ c ∈ text.toList, isPlainOrBlank c = true) :
    Token.Inert (' ' :: behindKeyword text) := by
  refine inert_of_isPlainOrBlank fun c hc => ?_
  unfold behindKeyword at hc
  rcases List.mem_cons.1 hc with rfl | hc
  · decide
  split at hc
  · cases hc
  · rcases List.mem_append.1 hc with hc | hc
    · exact h c hc
    · rw [List.mem_singleton.1 hc]
      decide

theorem trim_behindKeyword {text : String} (h : isPlainText text = true) :
    String.ofList (Text.trim (' ' :: behindKeyword text)) = text := by
  have hbehind : ∀ c ∈ [' '], c = ' ' := List.forall_mem_singleton.2 rfl
  rw [behindKeyword, if_neg (ne_empty_of_isPlainText h), trim_blank_isPlainText h hbehind,
    String.ofList_toList]

/-- A keyword that is written with small letters and asks for an at-rule. -/
structure Asks (keyword : String) (rule : AtRule) : Prop where
  chars : keyword.toList.all isKeywordChar = true
  start : startsIdent keyword.toList = true
  rule : AtRule.ofKeyword? keyword.toList = some rule

section

variable {keyword : String} {rule : AtRule} (h : Asks keyword rule)

include h

theorem Asks.isName : Token.IsName keyword.toList :=
  isName_of_isKeywordChar h.start (List.all_eq_true.1 h.chars)

theorem Asks.ofKeyword?_eq : AtRule.ofKeyword? (keywordToken keyword.toList).keyword = some rule := by
  rw [keyword_keywordToken (List.all_eq_true.1 h.chars), h.rule]

end

theorem asks_vendor {vendor : Option String} (h : ∀ v ∈ vendor, IsVendor v) {name : String}
    {rule : AtRule} (hchars : name.toList.all isKeywordChar = true)
    (hstart : startsIdent name.toList = true)
    (hrule : AtRule.ofKeyword? (vendorText vendor ++ name.toList) = some rule) :
    Asks (vendor.getD "" ++ name) rule := by
  have htext : (vendor.getD "" ++ name).toList = vendorText vendor ++ name.toList :=
    String.toList_append
  refine ⟨?_, ?_, ?_⟩
  · rw [htext, List.all_append, hchars, Bool.and_true, List.all_eq_true]
    exact AtRule.isKeywordChar_of_mem_vendorText h
  · rw [htext]
    exact AtRule.startsIdent_vendorText h hstart
  · rw [htext, hrule]

/-! ### Groups -/

section

variable {rules : List Rule}
  (hrules : ReadsInside (readRules .start none) (lines (rules.map Rule.render)).toList rules)
  (stop : Location)

include hrules

theorem reads_groupOf {keyword text : String} {rule : AtRule} (h : Asks keyword rule)
    (head : String → Group)
    (hform : ∀ cs, AtRule.ofKeyword? (keywordToken keyword.toList).keyword = some rule →
      AtRule.form? (keywordToken keyword.toList) cs = some (.group head))
    (htext : ∀ c ∈ text.toList, isPlainOrBlank c = true) :
    Reads (readRules stop none)
      (renderPrelude keyword text ++ renderBlock (rules.map Rule.render)).toList
      [.group (head (String.ofList (Text.trim (' ' :: behindKeyword text)))) rules] := by
  rw [toList_atRule]
  exact reads_group h.isName (inert_behindKeyword htext) stop
    (fun cs => hform cs h.ofKeyword?_eq) hrules

theorem Group.Plain.reads {group : Group} (h : group.Plain) :
    Reads (readRules stop none) (group.render ++ renderBlock (rules.map Rule.render)).toList
      [.group group rules] := by
  cases group with
  | media query =>
    have hasks : Asks "media" .media := ⟨by decide, by decide, by rfl⟩
    have hread := reads_groupOf hrules stop hasks .media
      (fun cs hrule => by simp only [AtRule.form?, hrule]) fun c hc => isPlainOrBlank_of_mem h hc
    rwa [trim_behindKeyword h] at hread
  | supports condition =>
    have hasks : Asks "supports" .supports := ⟨by decide, by decide, by rfl⟩
    have hread := reads_groupOf hrules stop hasks .supports
      (fun cs hrule => by simp only [AtRule.form?, hrule]) fun c hc => isPlainOrBlank_of_mem h hc
    rwa [trim_behindKeyword h] at hread
  | document matcher vendor =>
    obtain ⟨hmatcher, hvendor⟩ := h
    have hasks : Asks (vendor.getD "" ++ "document") (.document vendor) :=
      asks_vendor hvendor (by decide) (by decide) (AtRule.ofKeyword?_document hvendor)
    have hread := reads_groupOf hrules stop hasks (.document · vendor)
      (fun cs hrule => by simp only [AtRule.form?, hrule])
      fun c hc => isPlainOrBlank_of_mem hmatcher hc
    rwa [trim_behindKeyword hmatcher] at hread
  | host =>
    have hasks : Asks "host" .host := ⟨by decide, by decide, by rfl⟩
    have hempty : ∀ c ∈ "".toList, isPlainOrBlank c = true := by simp
    exact reads_groupOf hrules stop hasks (fun _ => .host)
      (fun cs hrule => by simp only [AtRule.form?, hrule]) hempty

end

/-! ### Keyframes, font faces and pages -/

/-- The selectors of a page are found again.  Without any there is only a blank to cut. -/
theorem selectors_behindKeyword {selectors : List String}
    (h : ∀ s ∈ selectors, isPlainText s = true) :
    (selectorsOf none (Component.leaves
      (' ' :: behindKeyword (", ".intercalate selectors)))).filter (· != "") = selectors := by
  cases selectors with
  | nil =>
    have hinert : Token.Inert [' '] := inert_of_isPlainOrBlank (List.forall_mem_singleton.2 (by decide))
    have hempty : behindKeyword (", ".intercalate []) = [] := rfl
    rw [hempty, selectorsOf_leaves_of_not_mem hinert (by decide)]
    rfl
  | cons s ss =>
    have hlead : ∀ c ∈ [' '], c = ' ' := List.forall_mem_singleton.2 rfl
    have hall : ∀ t ∈ s :: ss, (t != "") = true := fun t ht =>
      bne_iff_ne.2 (ne_empty_of_isPlainText (h t ht))
    have hne : ", ".intercalate (s :: ss) ≠ "" := by
      intro hempty
      obtain ⟨x, v, hlist, -⟩ := exists_cons_of_isPlainText (h s List.mem_cons_self)
      have htext := congrArg String.toList hempty
      rw [toList_selectors] at htext
      cases ss <;> simp [hlist, List.intercalate_cons_cons] at htext
    have hselectors := selectorsOf_plain h hlead hlead
    rw [← toList_selectors] at hselectors
    rw [behindKeyword, if_neg hne, ← List.singleton_append, hselectors, List.filter_eq_self.2 hall]

section

variable {declarations : List DeclarationEntry} (h : ∀ e ∈ declarations, e.Plain) (stop : Location)

theorem reads_plainKeyframes {name : String} {vendor : Option String} {frames : List FrameEntry}
    (hname : isPlainText name = true) (hvendor : ∀ v ∈ vendor, IsVendor v)
    (hframes : ∀ f ∈ frames, f.Plain) :
    Reads (readRules stop none) (Rule.keyframes name vendor frames).render.toList
      [.keyframes name vendor frames] := by
  have hasks : Asks (vendor.getD "" ++ "keyframes") (.keyframes vendor) :=
    asks_vendor hvendor (by decide) (by decide) (AtRule.ofKeyword?_keyframes hvendor)
  have htrim := trim_behindKeyword hname
  have htext : String.ofList (Text.trim (' ' :: behindKeyword name)) ≠ "" := by
    rw [htrim]
    exact ne_empty_of_isPlainText hname
  have hform : ∀ cs, AtRule.form? (keywordToken (vendor.getD "" ++ "keyframes").toList) cs =
      some (.keyframes vendor) := fun cs => by
    simp only [AtRule.form?, hasks.ofKeyword?_eq]
  have hread := reads_keyframes hasks.isName
    (inert_behindKeyword fun c hc => isPlainOrBlank_of_mem hname hc) stop hform htext
    (readsInside_frames hframes _)
  rwa [htrim, ← toList_atRule] at hread

include h

theorem reads_plainFontFace :
    Reads (readRules stop none) (Rule.fontFace declarations).render.toList
      [.fontFace declarations] := by
  have hasks : Asks "font-face" .fontFace := ⟨by decide, by decide, by rfl⟩
  have hempty : ∀ c ∈ "".toList, isPlainOrBlank c = true := by simp
  rw [Rule.render, toList_atRule]
  exact reads_fontFace hasks.isName (inert_behindKeyword hempty) stop
    (fun cs => by simp only [AtRule.form?, hasks.ofKeyword?_eq]) (readsInside_declarations h)

theorem reads_plainPage {selectors : List String}
    (hselectors : ∀ s ∈ selectors, isPlainText s = true) :
    Reads (readRules stop none) (Rule.page selectors declarations).render.toList
      [.page selectors declarations] := by
  have hasks : Asks "page" .page := ⟨by decide, by decide, by rfl⟩
  have htext : ∀ c ∈ (", ".intercalate selectors).toList, isPlainOrBlank c = true := fun c hc => by
    rw [toList_selectors] at hc
    exact isPlainOrBlank_of_mem_list hselectors hc
  have hfound := selectors_behindKeyword hselectors
  have hread := reads_page hasks.isName (inert_behindKeyword htext) stop
    (fun cs => by simp only [AtRule.form?, hasks.ofKeyword?_eq]) (readsInside_declarations h)
  rwa [hfound, ← toList_atRule] at hread

end

/-! ### At-rules without a block -/

section

variable {keyword text : String} {rule : AtRule} (h : Asks keyword rule) (stop : Location)

include h

theorem reads_statement {whole : Rule} (hne : text ≠ "")
    (htext : ∀ c ∈ text.toList, isPlainOrBlank c = true) (htrim : Text.trim text.toList = text.toList)
    (hform : ∀ cs rest, AtRule.ofKeyword? (keywordToken keyword.toList).keyword = some rule →
      AtRule.statement? cs = some (text, rest) →
        AtRule.form? (keywordToken keyword.toList) cs = some (.whole whole rest)) :
    Reads (readRules stop none) (renderPrelude keyword text ++ ";").toList [whole] := by
  have hinert : Token.Inert (' ' :: text.toList) := inert_of_isPlainOrBlank fun c hc => by
    rcases List.mem_cons.1 hc with rfl | hc
    · decide
    · exact htext c hc
  have hlead : ∀ c ∈ [' '], Text.isBlank c = true := List.forall_mem_singleton.2 rfl
  have htrim' : String.ofList (Text.trim (' ' :: text.toList)) = text := by
    have hblank := Text.trim_append_left hlead text.toList
    rw [htrim] at hblank
    rw [← List.singleton_append, hblank, String.ofList_toList]
  rw [toList_statement hne]
  refine reads_whole h.isName hinert stop (by rwa [htrim']) fun cs rest hstatement => ?_
  rw [htrim'] at hstatement
  exact hform cs rest h.ofKeyword?_eq hstatement

end

theorem reads_plainDirective {directive : Directive} {text : String} (h : isPlainText text = true)
    (stop : Location) :
    Reads (readRules stop none) (Rule.directive directive text).render.toList
      [.directive directive text] := by
  have hasks : Asks directive.keyword (.directive directive) := by
    cases directive <;> exact ⟨by decide, by decide, by rfl⟩
  exact reads_statement hasks stop (ne_empty_of_isPlainText h)
    (fun c hc => isPlainOrBlank_of_mem h hc) (trim_of_isPlainText h)
    fun cs rest hrule hstatement => by simp only [AtRule.form?, hrule, hstatement, Option.map_some]

/-- The name of custom media ends at the first blank. -/
theorem customMedia?_plain {name query : String} (hname : isPlainName name = true)
    (hquery : isPlainText query = true) :
    AtRule.customMedia? ("--" ++ name ++ " " ++ query) =
      some (.customMedia ("--" ++ name) query) := by
  have htext : ("--" ++ name ++ " " ++ query).toList =
      ('-' :: '-' :: name.toList) ++ ' ' :: query.toList := by simp
  have hkeep : ∀ c ∈ '-' :: '-' :: name.toList, (!Text.isBlank c) = true := fun c hc => by
    rcases List.mem_cons.1 hc with rfl | hc
    · rfl
    rcases List.mem_cons.1 hc with rfl | hc
    · rfl
    · rw [isBlank_of_mem_isPlainName hname hc]
      rfl
  have hblank : (!Text.isBlank ' ') = false := rfl
  have htake : ("--" ++ name ++ " " ++ query).toList.takeWhile (!Text.isBlank ·) =
      '-' :: '-' :: name.toList := by
    rw [htext, List.takeWhile_append_of_pos hkeep, List.takeWhile_cons, hblank]
    simp
  have hdrop : ("--" ++ name ++ " " ++ query).toList.dropWhile (!Text.isBlank ·) =
      ' ' :: query.toList := by
    rw [htext, List.dropWhile_append_of_pos hkeep, List.dropWhile_cons, hblank]
    simp
  have hlead : ∀ c ∈ [' '], Text.isBlank c = true := List.forall_mem_singleton.2 rfl
  have htrim : Text.trim (' ' :: query.toList) = query.toList :=
    (Text.trim_append_left hlead query.toList).trans (trim_of_isPlainText hquery)
  obtain ⟨c, hc, -⟩ := head?_of_isPlainName hname
  obtain ⟨cs, hcs⟩ := List.head?_eq_some_iff.1 hc
  obtain ⟨x, v, hlist, -⟩ := exists_cons_of_isPlainText hquery
  have hback : String.ofList ('-' :: '-' :: name.toList) = "--" ++ name := by
    rw [← String.toList_inj]
    simp
  unfold AtRule.customMedia?
  dsimp only
  rw [htake, hdrop, htrim, if_pos (by simp [hcs, hlist, List.isPrefixOf]), hback,
    String.ofList_toList]

theorem reads_plainCustomMedia {name query : String} (hname : isPlainName name = true)
    (hquery : isPlainText query = true) (stop : Location) :
    Reads (readRules stop none) (Rule.customMedia ("--" ++ name) query).render.toList
      [.customMedia ("--" ++ name) query] := by
  have hasks : Asks "custom-media" .customMedia := ⟨by decide, by decide, by rfl⟩
  obtain ⟨x, v, hlist, hx⟩ := exists_cons_of_isPlainText hquery
  have htext : ("--" ++ name ++ " " ++ query).toList =
      '-' :: '-' :: name.toList ++ ' ' :: query.toList := by simp
  refine reads_statement hasks stop ?_ (fun c hc => ?_) ?_ fun cs rest hrule hstatement => by
    simp only [AtRule.form?, hrule, hstatement, Option.bind_some, customMedia?_plain hname hquery,
      Option.map_some]
  · intro hempty
    rw [hempty] at htext
    cases htext
  · rw [htext] at hc
    simp only [List.cons_append, List.mem_cons, List.mem_append] at hc
    rcases hc with rfl | rfl | hc | rfl | hc
    · decide
    · decide
    · exact isPlainOrBlank_of_mem_isPlainName hname hc
    · decide
    · exact isPlainOrBlank_of_mem hquery hc
  · refine Text.trim_eq_self (fun c hc => ?_) fun c hc => ?_
    · rw [htext] at hc
      obtain rfl := Option.some.inj hc
      decide
    · have hlast : ("--" ++ name ++ " " ++ query).toList.getLast? = query.toList.getLast? := by
        rw [htext, List.getLast?_append, hlist, List.getLast?_cons_cons, List.getLast?_cons]
        rfl
      rw [hlast] at hc
      exact isBlank_of_mem_getLast? hquery hc

/-! ## Rules -/

theorem Rule.Plain.exists_cons {rule : Rule} (h : rule.Plain) :
    ∃ x w, rule.render.toList = x :: w ∧ isSpace x = false := by
  have prelude : ∀ keyword text behind : String,
      ∃ x w, (renderPrelude keyword text ++ behind).toList = x :: w ∧ isSpace x = false :=
    fun keyword text behind => ⟨'@', _, by simp [renderPrelude]; rfl, rfl⟩
  cases h with
  | style hselectors h => exact hselectors.exists_cons
  | @comment text h => exact ⟨'/', _, toList_renderComment text, rfl⟩
  | @group head rules hhead h => cases head <;> exact prelude _ _ _
  | keyframes hname hvendor h => exact prelude _ _ _
  | fontFace h => exact prelude _ _ _
  | page hselectors h => exact prelude _ _ _
  | customMedia hname hquery => exact prelude _ _ _
  | directive h => exact prelude _ _ _

/-- A plain rule is read off its rendering, whatever stands behind it. -/
theorem Rule.Plain.reads {rule : Rule} (h : rule.Plain) :
    ∀ stop, Reads (readRules stop none) rule.render.toList [rule] := by
  induction h with
  | style hselectors h => exact hselectors.reads_style h
  | comment h =>
    intro stop
    rw [render, toList_renderComment]
    have hread := reads_comment_rules h stop
    rwa [String.ofList_toList] at hread
  | group hhead h ih =>
    intro stop
    rw [render, renderAll_eq_map]
    have hrules := readsInside_lines (passesOver_readRules .start) (fun r hr => ih r hr .start)
      fun r hr => (h r hr).exists_cons
    exact Group.Plain.reads hrules stop hhead
  | keyframes hname hvendor h => exact fun stop => reads_plainKeyframes stop hname hvendor h
  | fontFace h => exact reads_plainFontFace h
  | page hselectors h => exact fun stop => reads_plainPage h stop hselectors
  | customMedia hname hquery => exact reads_plainCustomMedia hname hquery
  | directive h => exact reads_plainDirective h

namespace Stylesheet

/-- A text that spells components from which rules are read without a word has just these rules. -/
theorem parse_of_reads {css : String} {rules : List Rule}
    (h : Reads (readRules .start none) css.toList rules) (o : ReadOptions) :
    parse css o = .ok ⟨rules, []⟩ := by
  obtain ⟨cs, hspells, hread⟩ := h
  have hlevel : readRules .start none cs = pure rules := by
    have hwhole := hread []
    rwa [List.append_nil, readRules_nil, map_pure, List.append_nil] at hwhole
  have hcs : (Component.ofText .start css.toList).map Component.unplaced =
      cs.map Component.unplaced := by
    rw [← hspells.ofText_eq .start, List.map_map]
    exact List.map_congr_left fun c _ => (Component.unplaced_unplaced c).symm
  have hunplaced : (read css).unplaced = (pure rules : Reading (List Rule)).unplaced := by
    rw [← hlevel]
    exact unplaced_readRules _ _ rfl hcs
  have hrun := congrFun hunplaced o
  unfold Reading.unplaced at hrun
  unfold parse
  rcases hread : read css o with ⟨notes, p | found⟩
  · rw [hread] at hrun
    cases (Prod.mk.inj hrun).2
  · rw [hread] at hrun
    obtain ⟨hnotes, hfound⟩ := Prod.mk.inj hrun
    obtain rfl : found = rules := Except.ok.inj hfound
    obtain rfl : notes = [] := List.map_eq_nil_iff.1 hnotes
    rfl

/-- **Style sheets are read back from their plain rendering.**  Whatever plain rules are written down,
strict and silent readers find these rules in the text, and no problem. -/
theorem parse_render {rules : List Rule} (h : ∀ r ∈ rules, r.Plain) (o : ReadOptions) :
    parse (lines (rules.map Rule.render)) o = .ok ⟨rules, []⟩ := by
  refine parse_of_reads ?_ o
  rw [toList_lines]
  exact reads_lines (passesOver_readRules .start) (fun r hr => (h r hr).reads .start)
    fun r hr => (h r hr).exists_cons

/-- Keyframes and a page in a media group, between a comment and custom media. -/
theorem parse_render_nested :
    parse ("/*a*/\n@media b \x7b@-webkit-keyframes c \x7b0%, 50.5% \x7bd:1px;\x7d\x7d\n" ++
        "@page \x7b\x7d\x7d\n@custom-media --e f;") {} =
      .ok ⟨[.comment "a",
        .group (.media "b") [
          .keyframes "c" (some "-webkit-")
            [.frame ⟨["0%", "50.5%"], [.declaration ⟨"d", "1px"⟩]⟩],
          .page [] []],
        .customMedia ("--" ++ "e") "f"], []⟩ := by
  have hcomment : IsCommentText "a" := fun hin => absurd hin.length_le (by decide)
  have hvendor : ∀ v ∈ some "-webkit-", IsVendor v := by
    rintro v ⟨⟩
    exact ⟨"webkit".toList, by decide, List.all_eq_true.1 (by decide), rfl⟩
  have hdeclaration : DeclarationEntry.Plain (.declaration ⟨"d", "1px"⟩) :=
    ⟨by decide, .inr (by decide)⟩
  have hframe : FrameEntry.Plain (.frame ⟨["0%", "50.5%"], [.declaration ⟨"d", "1px"⟩]⟩) :=
    ⟨⟨by decide, by decide⟩, List.forall_mem_singleton.2 hdeclaration⟩
  have hframes : Rule.Plain (.keyframes "c" (some "-webkit-") _) :=
    .keyframes (by decide) hvendor (List.forall_mem_singleton.2 hframe)
  have hpage : Rule.Plain (.page [] []) := .page nofun nofun
  have hmedia : Rule.Plain (.group (.media "b") _) :=
    .group (by decide : isPlainText "b" = true)
      (List.forall_mem_cons.2 ⟨hframes, List.forall_mem_singleton.2 hpage⟩)
  have hcustom : Rule.Plain (.customMedia ("--" ++ "e") "f") := .customMedia (by decide) (by decide)
  exact parse_render (List.forall_mem_cons.2 ⟨.comment hcomment,
    List.forall_mem_cons.2 ⟨hmedia, List.forall_mem_singleton.2 hcustom⟩⟩) {}

end Stylesheet

end Restyle.Css
