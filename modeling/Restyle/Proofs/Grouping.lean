import Restyle.Proofs.ClosedText
import Restyle.Proofs.Lenient
import Restyle.Proofs.Rendering

/-!
# Rules are read inside a group as they are read alone

A text in which everything is closed can be put into a group: behind the head of a group and an opening
curly bracket, and in front of a closing one.  What was written is then one rule, the group, and its
rules are those of the text; the problems are those of the text too, in the same order
(`Stylesheet.parse_enclosed`).  The text may be malformed in any way that stays inside the brackets,
because a level is read alike whether it ends at a bracket or with the text.

The components of the whole are the keyword, the prelude and one block with the components of the text in
it (`Enclosure.ofTokens_write`).  A group in a group is put around in the same way, since what has been
written is closed again (`Enclosure.Valid.closedText`).
-/

namespace Restyle.Css

open Component

/-! ## Preludes -/

/-- What may stand between a keyword and a block: a closed text without a semicolon or a block in curly
brackets outside other blocks, with which the keyword does not go on. -/
structure IsPrelude (text : List Char) : Prop where
  closed : ClosedText text
  notEnd : ∀ c ∈ ofTokens (Token.row text), c.isEnd = false
  apart : ∀ c ∈ text.head?, isNameChar c = false ∧ c ≠ '\\'

theorem ofTokens_row_of_inert {text : List Char} (h : Token.Inert text) :
    ofTokens (Token.row text) = leaves text :=
  (settles_leaves h).ofTokens_eq

theorem Token.Kind.needsEnd_of_isInert {kind : Kind} (h : kind.isInert = true) :
    kind.needsEnd = false := by
  cases kind <;> first | rfl | cases h

theorem closedText_of_inert {text : List Char} (h : Token.Inert text) : ClosedText text where
  ended := by
    intro t ht hneeds
    exact absurd hneeds (by simp [Token.Kind.needsEnd_of_isInert (Token.isInert_of_mem_row h ht)])
  blocks := by
    rw [ofTokens_row_of_inert h]
    intro c hc
    obtain ⟨t, -, rfl⟩ := List.mem_map.1 hc
    rfl
  matched := by
    rw [ofTokens_row_of_inert h]
    exact fun c hc => isLeaf_of_mem_leaves h hc rfl
  last := fun hlast => h.ne_backslash _ (List.mem_of_getLast? hlast) rfl

/-- A refused block, a broken declaration with a comment, and a rule without a block. -/
theorem closedText_malformed : ClosedText "\x7bq\x7d,r\x7bs;t:/*\x7d*/v\x7d u".toList := by
  refine ⟨fun t ht hneeds c cs htext x => ?_, by decide +kernel, by decide +kernel, by decide⟩
  have hcomment : ∀ t ∈ Token.row "\x7bq\x7d,r\x7bs;t:/*\x7d*/v\x7d u".toList,
      t.kind.needsEnd = true → t.text = ['/', '*', '\x7d', '*', '/'] := by decide +kernel
  rw [hcomment t ht hneeds] at htext
  obtain ⟨rfl, rfl⟩ := List.cons.inj htext
  exact Nat.le_refl 4

theorem isPrelude_of_inert {text : List Char} (h : Token.Inert text)
    (hhead : ∀ c ∈ text.head?, isNameChar c = false) : IsPrelude text where
  closed := closedText_of_inert h
  notEnd := by
    rw [ofTokens_row_of_inert h]
    exact fun c hc => isEnd_of_mem_leaves h hc
  apart := fun c hc => ⟨hhead c hc, h.ne_backslash c (List.mem_of_head? hc)⟩

/-! ## Groups around a text -/

inductive GroupKind where
  | media
  | supports
  | document (vendor : Option String)
  | host
  deriving Repr, DecidableEq

namespace GroupKind

def keyword : GroupKind → String
  | .media => "media"
  | .supports => "supports"
  | .document vendor => vendor.getD "" ++ "document"
  | .host => "host"

/-- The head of a group of this kind with a given prelude. -/
def head : GroupKind → String → Group
  | .media => .media
  | .supports => .supports
  | .document vendor => (.document · vendor)
  | .host => fun _ => .host

def vendor? : GroupKind → Option String
  | .document vendor => vendor
  | _ => none

def rule : GroupKind → AtRule
  | .media => .media
  | .supports => .supports
  | .document vendor => .document vendor
  | .host => .host

variable {kind : GroupKind} (h : ∀ v ∈ kind.vendor?, IsVendor v)

include h

theorem asks : Asks kind.keyword kind.rule := by
  cases kind with
  | media => exact ⟨by decide, by decide, by rfl⟩
  | supports => exact ⟨by decide, by decide, by rfl⟩
  | document vendor => exact asks_vendor h (by decide) (by decide) (AtRule.ofKeyword?_document h)
  | host => exact ⟨by decide, by decide, by rfl⟩

/-- The keyword asks for a group of the kind. -/
theorem form?_keyword (cs : List Component) :
    AtRule.form? (keywordToken kind.keyword.toList) cs = some (.group kind.head) := by
  rw [AtRule.form?, (asks h).ofKeyword?_eq]
  cases kind <;> rfl

end GroupKind

/-- A group to put around a text: its kind and what stands between its keyword and its block. -/
structure Enclosure where
  kind : GroupKind
  prelude : String

namespace Enclosure

/-- The group with a text in it. -/
def write (e : Enclosure) (body : String) : String :=
  "@" ++ e.kind.keyword ++ e.prelude ++ "\x7b" ++ body ++ "\x7d"

/-- The head that is read off the group. -/
def head (e : Enclosure) : Group :=
  e.kind.head (trimmedText (ofText .start e.prelude.toList))

structure Valid (e : Enclosure) : Prop where
  vendor : ∀ v ∈ e.kind.vendor?, IsVendor v
  prelude : IsPrelude e.prelude.toList

theorem head_eq (e : Enclosure) :
    e.head = e.kind.head (trimmedText (ofTokens (Token.row e.prelude.toList))) := by
  rw [head, ← unplaced_ofText_eq .start, trimmedText_unplaced]

/-- Plain texts with blanks around them are preludes, and they are read as they are. -/
theorem valid_of_isPlainText {kind : GroupKind} (hkind : ∀ v ∈ kind.vendor?, IsVendor v)
    {text : String} (h : text = "" ∨ isPlainText text = true) :
    Valid ⟨kind, " " ++ text ++ " "⟩ ∧ head ⟨kind, " " ++ text ++ " "⟩ = kind.head text := by
  have hbehind : ∀ c ∈ [' '], c = ' ' := List.forall_mem_singleton.2 rfl
  have hlist : (" " ++ text ++ " ").toList = ' ' :: (text.toList ++ [' ']) := by simp
  have hplain : ∀ c ∈ text.toList, isPlainOrBlank c = true := by
    rcases h with rfl | h
    · exact nofun
    · exact fun c hc => isPlainOrBlank_of_mem h hc
  have hinert : Token.Inert (' ' :: (text.toList ++ [' '])) := by
    refine inert_of_isPlainOrBlank fun c hc => ?_
    rcases List.mem_cons.1 hc with rfl | hc
    · decide
    rcases List.mem_append.1 hc with hc | hc
    · exact hplain c hc
    · rw [hbehind c hc]
      decide
  have htrim : Text.trim (' ' :: (text.toList ++ [' '])) = text.toList := by
    rcases h with rfl | h
    · rfl
    · exact trim_blank_isPlainText h hbehind
  refine ⟨⟨hkind, ?_⟩, ?_⟩
  · rw [hlist]
    refine isPrelude_of_inert hinert ?_
    rintro c ⟨⟩
    decide
  · rw [head_eq, hlist, ofTokens_row_of_inert hinert, trimmedText_leaves hinert, htrim,
      String.ofList_toList]

/-- A prelude with a block in round brackets. -/
theorem valid_media_round : Valid ⟨.media, " (a) "⟩ := by
  have hkinds : ∀ t ∈ Token.row " (a) ".toList, t.kind.needsEnd = false := by decide +kernel
  have hclosed : ClosedText " (a) ".toList := by
    refine ⟨fun t ht hneeds => ?_, by decide +kernel, by decide +kernel, by decide⟩
    rw [hkinds t ht] at hneeds
    cases hneeds
  refine ⟨nofun, hclosed, by decide +kernel, fun c hc => ?_⟩
  obtain rfl : ' ' = c := Option.some.inj hc
  decide

theorem toList_write (e : Enclosure) (body : String) : (e.write body).toList =
    '@' :: e.kind.keyword.toList ++ (e.prelude.toList ++ '\x7b' :: (body.toList ++ ['\x7d'])) := by
  simp [write]

section

variable {e : Enclosure} (he : e.Valid) {body : String} (hbody : ClosedText body.toList)

include he hbody

/-- The tokens of a group with a text in it. -/
theorem row_write : Token.row (e.write body).toList =
    keywordToken e.kind.keyword.toList :: (Token.row e.prelude.toList ++
      ⟨.opening .curly, ['\x7b'], .start⟩ :: (Token.row body.toList ++
        [⟨.closing .curly, ['\x7d'], .start⟩])) := by
  have hname := (GroupKind.asks he.vendor).isName
  -- the keyword ends with the prelude or, if that is empty, with the bracket
  have hkeyword : ∀ s, Token.row ('@' :: e.kind.keyword.toList ++ (e.prelude.toList ++ '\x7b' :: s)) =
      keywordToken e.kind.keyword.toList :: Token.row (e.prelude.toList ++ '\x7b' :: s) := by
    intro s
    have hapart := he.prelude.apart
    cases hlist : e.prelude.toList with
    | nil => exact Token.row_keyword hname rfl (by decide) s
    | cons c cs =>
      rw [hlist] at hapart
      obtain ⟨hchar, hbackslash⟩ := hapart c rfl
      exact Token.row_keyword hname hchar hbackslash (cs ++ '\x7b' :: s)
  rw [toList_write, hkeyword, he.prelude.closed.row_append Token.stop_openingCurly,
    Token.row_of_stop Token.stop_openingCurly, hbody.row_append Token.stop_closingCurly,
    Token.row_of_stop Token.stop_closingCurly, Token.row_nil]
  rfl

/-- The components of a group with a text in it. -/
theorem ofTokens_write : ofTokens (Token.row (e.write body).toList) =
    .leaf (keywordToken e.kind.keyword.toList) ::
      (ofTokens (Token.row e.prelude.toList) ++ [curly (ofTokens (Token.row body.toList))]) := by
  have hprelude : (Token.row e.prelude.toList).foldl Nesting.push
      ⟨[.leaf (keywordToken e.kind.keyword.toList)], []⟩ =
      ⟨(ofTokens (Token.row e.prelude.toList)).reverse ++
        [.leaf (keywordToken e.kind.keyword.toList)], []⟩ := by
    have htop := Nesting.foldl_push_onTop [.leaf (keywordToken e.kind.keyword.toList)] {}
      (Token.row e.prelude.toList)
    rw [he.prelude.closed.foldl_push] at htop
    exact htop
  have hinside := hbody.foldl_push_inside (p := ⟨⟨.opening .curly, ['\x7b'], .start⟩,
    (ofTokens (Token.row e.prelude.toList)).reverse ++
      [.leaf (keywordToken e.kind.keyword.toList)]⟩) rfl []
  rw [row_write he hbody, ofTokens, List.foldl_cons, List.foldl_append, List.foldl_cons,
    List.foldl_append]
  have hfirst : Nesting.push {} (keywordToken e.kind.keyword.toList) =
      ⟨[.leaf (keywordToken e.kind.keyword.toList)], []⟩ := rfl
  have hopen : ∀ level, Nesting.push ⟨level, []⟩ ⟨.opening .curly, ['\x7b'], .start⟩ =
      ⟨[], [⟨⟨.opening .curly, ['\x7b'], .start⟩, level⟩]⟩ := fun _ => rfl
  rw [hfirst, hprelude, hopen, hinside]
  simp [Nesting.push, Token.Kind.opens?, Token.Kind.closes?, Nesting.finish, curly]

/-- What holds of the keyword, of the prelude and of the block holds of all the components. -/
theorem forall_mem_write {P : Component → Prop}
    (hkeyword : P (.leaf (keywordToken e.kind.keyword.toList)))
    (hprelude : ∀ c ∈ ofTokens (Token.row e.prelude.toList), P c)
    (hblock : P (curly (ofTokens (Token.row body.toList)))) :
    ∀ c ∈ ofTokens (Token.row (e.write body).toList), P c := by
  rw [ofTokens_write he hbody]
  intro c hc
  rcases List.mem_cons.1 hc with rfl | hc
  · exact hkeyword
  rcases List.mem_append.1 hc with hc | hc
  · exact hprelude c hc
  · obtain rfl := List.mem_singleton.1 hc
    exact hblock

/-- A group with a closed text in it is closed. -/
theorem Valid.closedText : ClosedText (e.write body).toList where
  ended := by
    rw [row_write he hbody]
    intro t ht
    rcases List.mem_cons.1 ht with rfl | ht
    · exact nofun
    rcases List.mem_append.1 ht with ht | ht
    · exact he.prelude.closed.ended t ht
    rcases List.mem_cons.1 ht with rfl | ht
    · exact nofun
    rcases List.mem_append.1 ht with ht | ht
    · exact hbody.ended t ht
    · obtain rfl := List.mem_singleton.1 ht
      exact nofun
  blocks := forall_mem_write he hbody rfl he.prelude.closed.blocks rfl
  matched := forall_mem_write he hbody rfl he.prelude.closed.matched rfl
  last := by
    have hlast : (e.write body).toList.getLast? = some '\x7d' := by
      rw [toList_write, ← List.cons_append, ← List.append_assoc, ← List.append_assoc,
        List.getLast?_concat]
    rw [hlast]
    decide

/-! ## Reading a group -/

/-- A group is read off its components by reading what stands in its block. -/
theorem readRules_write (stop : Location) :
    readRules stop none (ofTokens (Token.row (e.write body).toList)) =
      (fun rules => [Rule.group e.head rules]) <$>
        readRules .start none (ofTokens (Token.row body.toList)) := by
  have hend : (curly (ofTokens (Token.row body.toList))).isEnd = true := rfl
  have hcut : Statement.cut stop none (.leaf (keywordToken e.kind.keyword.toList))
      (ofTokens (Token.row e.prelude.toList) ++ [curly (ofTokens (Token.row body.toList))]) =
      ⟨.group e.head (.block (ofTokens (Token.row body.toList)) .start true), none, []⟩ := by
    rw [Statement.cut_keywordToken stop _ (GroupKind.form?_keyword he.vendor _), Statement.cutForm,
      Statement.cutGroup, untilEnd_of_isEnd he.prelude.notEnd hend,
      fromEnd_of_isEnd he.prelude.notEnd hend, ofLevel_curly, head_eq]
  rw [ofTokens_write he hbody, readRules_cons, hcut]
  simp only [Statement.read, Body.read_block, Body.contents, Body.stop, readRules_nil, map_pure,
    Bool.not_true, Bool.false_eq_true, if_false, pure_bind, bind_assoc, List.append_nil]
  exact (map_eq_pure_bind _ _).symm

/-- Up to places, reading a group is reading what is in it. -/
theorem unplaced_read_write : (Stylesheet.read (e.write body)).unplaced =
    ((fun rules => [Rule.group e.head rules]) <$> Stylesheet.read body).unplaced := by
  have place : ∀ (css : String), (Stylesheet.read css).unplaced =
      (readRules .start none (ofTokens (Token.row css.toList))).unplaced := by
    intro css
    refine unplaced_readRules _ _ rfl ?_
    rw [unplaced_ofText_eq, unplaced_ofTokens_row]
  rw [place, readRules_write he hbody]
  exact Reading.unplaced_map_congr _ (place body).symm

/-- A group has the rules of what is in it, and the same is said of both. -/
theorem parse_write {source : Option String} {inner : Stylesheet}
    (hinner : Stylesheet.parse body ⟨source, true⟩ = .ok inner) :
    ∃ outer, Stylesheet.parse (e.write body) ⟨source, true⟩ = .ok outer ∧
      outer.rules = [.group e.head inner.rules] ∧ outer.messages = inner.messages := by
  have hgives : (Stylesheet.readBehind none body).Gives source inner.rules inner.messages :=
    Stylesheet.parseBehind_ok_iff.2 ⟨inner, hinner, rfl, rfl⟩
  have hgroup := (hgives.map fun rules => [Rule.group e.head rules]).congr
    (unplaced_read_write he hbody).symm
  exact Stylesheet.parseBehind_ok_iff.1 hgroup

end

/-! ## Groups in groups -/

/-- Groups around a text, the first one outermost. -/
def writeAll (es : List Enclosure) (body : String) : String :=
  es.foldr write body

/-- Rules inside groups, the first one outermost. -/
def nest (es : List Enclosure) (rules : List Rule) : List Rule :=
  es.foldr (fun e rules => [.group e.head rules]) rules

theorem closedText_writeAll {es : List Enclosure} (hes : ∀ e ∈ es, e.Valid) {body : String}
    (hbody : ClosedText body.toList) : ClosedText (writeAll es body).toList := by
  induction es with
  | nil => exact hbody
  | cons e es ih =>
    obtain ⟨he, hes⟩ := List.forall_mem_cons.1 hes
    exact he.closedText (ih hes)

theorem parse_writeAll {es : List Enclosure} (hes : ∀ e ∈ es, e.Valid) {body : String}
    (hbody : ClosedText body.toList) {source : Option String} {inner : Stylesheet}
    (hinner : Stylesheet.parse body ⟨source, true⟩ = .ok inner) :
    ∃ outer, Stylesheet.parse (writeAll es body) ⟨source, true⟩ = .ok outer ∧
      outer.rules = nest es inner.rules ∧ outer.messages = inner.messages := by
  induction es with
  | nil => exact ⟨inner, hinner, rfl, rfl⟩
  | cons e es ih =>
    obtain ⟨he, hes⟩ := List.forall_mem_cons.1 hes
    obtain ⟨middle, hmiddle, hrules, hmessages⟩ := ih hes
    obtain ⟨outer, houter, hrules', hmessages'⟩ :=
      parse_write he (closedText_writeAll hes hbody) hmiddle
    refine ⟨outer, houter, ?_, hmessages'.trans hmessages⟩
    rw [hrules', hrules]
    rfl

end Enclosure

namespace Stylesheet

/-- **Rules are read inside groups as they are read alone.**  A text in which everything is closed is
put into any number of groups.  A silent reader finds one rule for each group, inside the one before,
in the innermost the rules that it finds in the text alone, and the same is said of the problems in the
same order.  Plain texts with blanks around them are preludes that such groups may have. -/
theorem parse_enclosed :
    (∀ {es : List Enclosure} {body : String}, (∀ e ∈ es, e.Valid) → ClosedText body.toList →
      ∀ source, ∃ inner outer, parse body ⟨source, true⟩ = .ok inner ∧
        parse (Enclosure.writeAll es body) ⟨source, true⟩ = .ok outer ∧
        outer.rules = Enclosure.nest es inner.rules ∧ outer.messages = inner.messages) ∧
    ∀ {kind : GroupKind} {text : String}, (∀ v ∈ kind.vendor?, IsVendor v) →
      text = "" ∨ isPlainText text = true →
        Enclosure.Valid ⟨kind, " " ++ text ++ " "⟩ ∧
        Enclosure.head ⟨kind, " " ++ text ++ " "⟩ = kind.head text := by
  refine ⟨fun hes hbody source => ?_, fun hkind h => Enclosure.valid_of_isPlainText hkind h⟩
  obtain ⟨inner, hinner⟩ := exists_parse_silent _ source
  obtain ⟨outer, houter, hrules, hmessages⟩ := Enclosure.parse_writeAll hes hbody hinner
  exact ⟨inner, outer, hinner, houter, hrules, hmessages⟩

/-- A malformed text inside a document in a media group. -/
theorem parse_enclosed_malformed : ∃ outer,
    parse ("@media (a) \x7b@-o-document b \x7b" ++ "\x7bq\x7d,r\x7bs;t:/*\x7d*/v\x7d u" ++ "\x7d\x7d")
      ⟨none, true⟩ = .ok outer ∧
    outer.rules = [.group (.media "(a)") [.group (.document "b" (some "-o-"))
      [.style ["", "r"] [.declaration ⟨"t", "v"⟩], .style ["u"] []]]] ∧
    outer.messages = ["selector missing", "property missing ':'", "missing '\x7b'"] := by
  have hvendor : ∀ v ∈ some "-o-", IsVendor v := by
    rintro v ⟨⟩
    exact ⟨['o'], by decide, List.all_eq_true.1 (by decide), rfl⟩
  have hplain : "b" = "" ∨ isPlainText "b" = true := .inr (by decide)
  obtain ⟨hdocument, hhead⟩ :
      Enclosure.Valid ⟨.document (some "-o-"), " " ++ "b" ++ " "⟩ ∧
        Enclosure.head ⟨.document (some "-o-"), " " ++ "b" ++ " "⟩ = .document "b" (some "-o-") :=
    parse_enclosed.2 hvendor hplain
  have hes : ∀ e ∈ [⟨.media, " (a) "⟩, ⟨.document (some "-o-"), " " ++ "b" ++ " "⟩],
      Enclosure.Valid e :=
    List.forall_mem_cons.2 ⟨Enclosure.valid_media_round, List.forall_mem_singleton.2 hdocument⟩
  obtain ⟨inner, outer, hinner, houter, hrules, hmessages⟩ :=
    parse_enclosed.1 hes closedText_malformed none
  have halone : (parse "\x7bq\x7d,r\x7bs;t:/*\x7d*/v\x7d u" ⟨none, true⟩).map
      (fun sheet => (sheet.rules, sheet.messages)) =
      .ok ([.style ["", "r"] [.declaration ⟨"t", "v"⟩], .style ["u"] []],
        ["selector missing", "property missing ':'", "missing '\x7b'"]) := by decide +kernel
  rw [hinner] at halone
  obtain ⟨hinside, hsaid⟩ := Prod.mk.inj (Except.ok.inj halone)
  have hmedia : Enclosure.head ⟨.media, " (a) "⟩ = .media "(a)" := by decide +kernel
  refine ⟨outer, houter, ?_, hmessages.trans hsaid⟩
  rw [hrules, hinside]
  exact congrArg₂ (fun m d => [Rule.group m [.group d _]]) hmedia hhead

end Stylesheet

end Restyle.Css
