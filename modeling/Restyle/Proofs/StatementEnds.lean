import Restyle.Proofs.Boundaries

/-!
# Where at-rules without a block end

A semicolon ends an at-rule that has the form its keyword asks for: what stands behind it is read as
at the start of a text.  An at-rule without a form of its own is read as a style rule, and a style
rule runs to the next block in curly brackets, so what stands in front of that block becomes a part of
its selectors.  Pages look for a block too and are left aside here.
-/

namespace Restyle.Css

open Component

/-- A text that is one at-rule with a semicolon at its end: the keyword, and behind it components that
are neither semicolons nor blocks in curly brackets, but for the last. -/
structure IsStatement (head : String) (keyword : Token) (behind : List Component) : Prop where
  text : ofText .start head.toList = .leaf keyword :: behind
  keyword_kind : keyword.kind = .atKeyword
  ends : ∃ front semicolon, behind = front ++ [.leaf semicolon] ∧ semicolon.kind = .semicolon ∧
    ∀ c ∈ front, c.isEnd = false

/-! ## Statements that a semicolon ends -/

section

variable {front : List Component} {semicolon : Token} (hkind : semicolon.kind = .semicolon)
  (hfront : ∀ c ∈ front, c.isEnd = false)

include hkind

theorem isEnd_semicolon : (leaf semicolon).isEnd = true := by
  rw [isEnd, isSemicolon, isLeaf, hkind]
  rfl

include hfront

theorem fromEnd_statement : fromEnd (front ++ [.leaf semicolon]) = [.leaf semicolon] := by
  have hpass : ∀ c ∈ front, (!c.isEnd) = true := fun c hc => by rw [hfront c hc]; rfl
  have hstop : (!(leaf semicolon).isEnd) = false := by rw [isEnd_semicolon hkind]; rfl
  exact (List.dropWhile_append_of_pos hpass).trans (List.dropWhile_cons_of_neg (by simp [hstop]))

theorem AtRule.statement?_statement {text : String} {rest : List Component}
    (h : AtRule.statement? (front ++ [.leaf semicolon]) = some (text, rest)) : rest = [] := by
  unfold AtRule.statement? at h
  dsimp only at h
  rw [fromEnd_statement hkind hfront] at h
  split at h
  · cases h
  · simp only [AtRule.afterEnd?, isSemicolon, isLeaf, hkind, beq_self_eq_true, if_true,
      Option.map_some, Option.some.injEq, Prod.mk.injEq] at h
    exact h.2.symm

/-- What an at-rule that a semicolon ends leaves of its text: nothing, or the semicolon. -/
theorem Statement.rest_cutAtRule_statement (stop : Location) (c : Component) {keyword : Token}
    (h : AtRule.wantsBlock keyword (front ++ [.leaf semicolon]) = false) :
    (cutAtRule stop none keyword c (front ++ [.leaf semicolon])).skipped = none ∧
      ((cutAtRule stop none keyword c (front ++ [.leaf semicolon])).rest = [] ∨
        (cutAtRule stop none keyword c (front ++ [.leaf semicolon])).rest = [.leaf semicolon]) := by
  have hend := fromEnd_statement hkind hfront
  unfold AtRule.wantsBlock at h
  rw [cutAtRule_eq]
  cases hform : AtRule.form? keyword (front ++ [.leaf semicolon]) with
  | none =>
    rw [hform] at h
    cases h
  | some form =>
    rw [hform] at h
    cases form with
    | page => cases h
    | keyframes vendor =>
      dsimp only [cutForm, cutKeyframes]
      rw [hend]
      split <;> exact ⟨rfl, .inr rfl⟩
    | whole rule rest =>
      obtain ⟨text, hstatement⟩ := AtRule.exists_statement?_of_form? hform
      exact ⟨rfl, .inl (AtRule.statement?_statement hkind hfront hstatement)⟩
    | _ =>
      dsimp only [cutForm, cutGroup]
      rw [hend]
      exact ⟨rfl, .inr rfl⟩

omit hfront in
theorem readRules_semicolon (stop : Location) (ds : List Component) :
    readRules stop none (.leaf semicolon :: ds) = readRules stop none ds := by
  have hcut : Statement.cut stop none (.leaf semicolon) ds = ⟨.flat .gap, none, ds⟩ := by
    simp only [Statement.cut, hkind]
  rw [readRules_cons, hcut]
  simp [Statement.read, Statement.Flat.read]

/-- Behind an at-rule that a semicolon ends, a level is read as if it started there. -/
theorem readRules_statement (stop : Location) {keyword : Token} (hkeyword : keyword.kind = .atKeyword)
    (h : AtRule.wantsBlock keyword (front ++ [.leaf semicolon]) = false) (ds : List Component) :
    readRules stop none (.leaf keyword :: (front ++ [.leaf semicolon]) ++ ds) =
      readRules stop none (.leaf keyword :: (front ++ [.leaf semicolon])) >>= fun rules =>
        (rules ++ ·) <$> readRules stop none ds := by
  have hcut : ∀ cs, Statement.cut stop none (.leaf keyword) cs =
      Statement.cutAtRule stop none keyword (.leaf keyword) cs := fun cs => by
    simp only [Statement.cut, hkeyword]
  have hend : ∃ c ∈ front ++ [.leaf semicolon], c.isEnd = true :=
    ⟨_, List.mem_concat_self, isEnd_semicolon hkind⟩
  have happend := Statement.cutAtRule_append stop none (c := .leaf keyword) ds keyword hend
    fun hwants => absurd (h.symm.trans hwants) Bool.false_ne_true
  obtain ⟨hskipped, hrest⟩ := Statement.rest_cutAtRule_statement hkind hfront stop (.leaf keyword) h
  rw [List.cons_append, readRules_cons, readRules_cons, hcut, hcut, happend]
  dsimp only [Statement.Cut.append]
  rw [hskipped]
  rcases hrest with hrest | hrest
  · rw [hrest]
    simp [readRules_nil]
  · rw [hrest]
    simp [readRules_semicolon hkind, readRules_nil]

end

/-! ## At-rules that are read as style rules -/

theorem AtRule.isPlain_append {keyword : Token} {cs : List Component}
    (h : ∃ c ∈ cs, c.isEnd = true) (ds : List Component) :
    isPlain keyword (cs ++ ds) = isPlain keyword cs := by
  rw [isPlain, isPlain, form?_append h, Option.isNone_map]

theorem Statement.cutAtRule_of_isPlain (stop : Location) (skipped : Option Skipped)
    {keyword : Token} (c : Component) {cs : List Component} (h : AtRule.isPlain keyword cs = true) :
    cutAtRule stop skipped keyword c cs = cutStyle stop skipped c cs := by
  rw [cutAtRule_eq, Option.isNone_iff_eq_none.1 h]

/-- What starts with an at-keyword has a selector. -/
theorem selectorsOf_atKeyword {keyword : Token} (hkind : keyword.kind = .atKeyword)
    (htext : keyword.text.head? = some '@') (cs : List Component) :
    (selectorsOf none (.leaf keyword :: cs)).all (· == "") = false := by
  have hcomma : (leaf keyword).isComma = false := by simp [isComma, isLeaf, hkind]
  have hcomment : (leaf keyword).isComment = false := by simp [isComment, isLeaf, hkind]
  obtain ⟨first, others, -, hsplit⟩ := exists_splitOn_cons hcomma cs
  have hat : '@' ∈ plainText (.leaf keyword :: first) := by
    rw [plainText, List.filter_cons_of_pos (by simp [hcomment]), List.flatMap_cons]
    refine List.mem_append_left _ ?_
    simpa [text, tokens] using List.mem_of_head? htext
  have hpiece : String.ofList (Text.trim (plainText (.leaf keyword :: first))) ≠ "" := by
    intro h
    have hmem := Text.mem_trim (by decide) hat
    rw [String.ofList_eq_empty_iff.1 h] at hmem
    cases hmem
  simp [selectorsOf, hsplit, hpiece]

/-- A text that starts with an at-rule which is read as a style rule has that as its first rule, with
all that stands in front of the next block for its selectors. -/
theorem readRules_of_isPlain (stop : Location) {keyword : Token} (hkind : keyword.kind = .atKeyword)
    (htext : keyword.text.head? = some '@') {cs : List Component}
    (h : AtRule.isPlain keyword cs = true) :
    ∃ body rest, readRules stop none (.leaf keyword :: cs) =
      (Statement.Flat.style (selectorsOf none (untilCurly (.leaf keyword :: cs))) body).read >>=
        fun rule => (rule ++ ·) <$> readRules stop none rest := by
  have hcurly : untilCurly (.leaf keyword :: cs) = .leaf keyword :: untilCurly cs := rfl
  have hcut : Statement.cut stop none (.leaf keyword) cs =
      Statement.cutAtRule stop none keyword (.leaf keyword) cs := by
    simp only [Statement.cut, hkind]
  have hselectors := selectorsOf_atKeyword hkind htext (untilCurly cs)
  rw [← hcurly] at hselectors
  rw [readRules_cons, hcut, Statement.cutAtRule_of_isPlain _ _ _ h, Statement.cutStyle]
  dsimp only
  rw [if_neg (by simp [hselectors, isCurly, isBlock])]
  exact ⟨_, _, rfl⟩

/-! ## Texts -/

section

variable {head : String} {keyword : Token} {behind : List Component}
  (h : IsStatement head keyword behind)

include h

/-- The components of a text behind such an at-rule are those of the text alone. -/
theorem IsStatement.exists_ofText_append (s : List Char) :
    ∃ place, ofText .start (head.toList ++ s) = .leaf keyword :: behind ++ ofText place s := by
  obtain ⟨front, semicolon, rfl, hkind, -⟩ := h.ends
  have htext : ofText .start head.toList = (.leaf keyword :: front) ++ [.leaf semicolon] := h.text
  have hmem : semicolon ∈ Token.lex .start head.toList := by
    refine mem_lex_of_mem_ofText (c := .leaf semicolon) ?_ (List.mem_singleton.2 rfl)
    rw [htext]
    exact List.mem_concat_self
  have happend := ofText_append Token.stop_semicolon htext rfl (List.nil_append _).symm
    (Token.text_of_semicolon hmem hkind) s
  rw [htext] at happend
  exact ⟨_, happend⟩

theorem IsStatement.head?_text : keyword.text.head? = some '@' := by
  have hmem : keyword ∈ Token.lex .start head.toList := by
    refine mem_lex_of_mem_ofText (c := .leaf keyword) ?_ (List.mem_singleton.2 rfl)
    rw [h.text]
    exact List.mem_cons_self
  exact Token.head?_text_of_atKeyword hmem h.keyword_kind

theorem IsStatement.exists_isEnd : ∃ c ∈ behind, c.isEnd = true := by
  obtain ⟨front, semicolon, rfl, hkind, -⟩ := h.ends
  exact ⟨_, List.mem_concat_self, isEnd_semicolon hkind⟩

theorem IsStatement.isCurly_eq_false : ∀ c ∈ leaf keyword :: behind, c.isCurly = false := by
  obtain ⟨front, semicolon, rfl, hkind, hfront⟩ := h.ends
  intro c hc
  rcases List.mem_cons.1 hc with rfl | hc
  · rfl
  · rcases List.mem_append.1 hc with hc | hc
    · exact (Bool.or_eq_false_iff.1 (hfront c hc)).1
    · obtain rfl := List.mem_singleton.1 hc
      rfl

/-- What stands in front of the next block begins with the whole at-rule. -/
theorem IsStatement.untilCurly_append (ds : List Component) :
    untilCurly (.leaf keyword :: behind ++ ds) = .leaf keyword :: behind ++ untilCurly ds :=
  List.takeWhile_append_of_pos fun c hc => by rw [h.isCurly_eq_false c hc]; rfl

theorem IsStatement.unplaced_read_append (hwants : AtRule.wantsBlock keyword behind = false)
    (s : String) : (Stylesheet.read (head ++ s)).unplaced =
      (Stylesheet.read head >>= fun rules =>
        (rules ++ ·) <$> Stylesheet.readBehind none s).unplaced := by
  obtain ⟨place, happend⟩ := h.exists_ofText_append s.toList
  obtain ⟨front, semicolon, rfl, hkind, hfront⟩ := h.ends
  unfold Stylesheet.read Stylesheet.readBehind
  dsimp only
  rw [String.toList_append, happend, readRules_statement hkind hfront _ h.keyword_kind hwants,
    h.text]
  refine Reading.unplaced_bind_congr (unplaced_readRules _ _ rfl rfl) fun rules => ?_
  exact Reading.unplaced_map_congr _ (unplaced_readRules _ _ rfl (unplaced_ofText _ _ _))

theorem IsStatement.exists_read_of_isPlain (hplain : AtRule.isPlain keyword behind = true)
    (s : String) : ∃ body stop rest, Stylesheet.readBehind none (head ++ s) =
      (Statement.Flat.style (selectorsOf none
        (ofText .start head.toList ++ untilCurly (ofText .start s.toList))) body).read >>=
        fun rule => (rule ++ ·) <$> readRules stop none rest := by
  obtain ⟨place, happend⟩ := h.exists_ofText_append s.toList
  have hplain' : AtRule.isPlain keyword (behind ++ ofText place s.toList) = true :=
    (AtRule.isPlain_append h.exists_isEnd _).trans hplain
  obtain ⟨body, rest, hread⟩ := readRules_of_isPlain (Location.start.advance (head ++ s).toList)
    h.keyword_kind h.head?_text hplain'
  have hselectors : selectorsOf none (untilCurly (.leaf keyword :: behind ++ ofText place s.toList)) =
      selectorsOf none (ofText .start head.toList ++ untilCurly (ofText .start s.toList)) := by
    rw [h.untilCurly_append, h.text]
    refine selectorsOf_congr rfl ?_
    rw [List.map_append, List.map_append, untilCurly_congr (unplaced_ofText _ _ _)]
  refine ⟨body, Location.start.advance (head ++ s).toList, rest, ?_⟩
  rw [← hselectors, Stylesheet.readBehind, String.toList_append, happend,
    ← String.toList_append]
  exact hread

end

/-- The selectors of a style rule.  Other rules have none. -/
def Rule.selectors : Rule → List String
  | .style selectors _ => selectors
  | _ => []

namespace Stylesheet

/-- **A semicolon ends the at-rules that have their form.**  An at-rule with a form of its own, other
than a page, that a semicolon ends takes nothing from the text behind it: both are read as each is
alone.  One without a form of its own is read as a style rule, and what stands in front of the next
block, the at-rule with its semicolon included, is read as the selectors of that rule. -/
theorem splitsBetween_of_isStatement {head : String} {keyword : Token} {behind : List Component}
    (h : IsStatement head keyword behind) (source : Option String) :
    (AtRule.wantsBlock keyword behind = false → ∀ s, SplitsBetween source head s) ∧
      (AtRule.isPlain keyword behind = true → ∀ s, ∃ sheet declarations rules,
        parse (head ++ s) ⟨source, true⟩ = .ok sheet ∧
          sheet.rules = .style (selectorsOf none
            (ofText .start head.toList ++ untilCurly (ofText .start s.toList))) declarations ::
            rules) := by
  refine ⟨fun hwants s => splitsBehind_of_unplaced (h.unplaced_read_append hwants s) source,
    fun hplain s => ?_⟩
  obtain ⟨body, stop, rest, hread⟩ := h.exists_read_of_isPlain hplain s
  obtain ⟨declarations, left, hbody⟩ :=
    (body.inStep_read .plain (inStep_readDeclarations body.contents)).exists_gives source
  obtain ⟨rules, right, hrest⟩ := (inStep_readRules stop none rest).exists_gives source
  have whole : ∃ messages, (readBehind none (head ++ s)).Gives source
      (.style (selectorsOf none (ofText .start head.toList ++ untilCurly (ofText .start s.toList)))
        (declarations.getD []) :: rules) messages := by
    rw [hread]
    exact ⟨_, (hbody.bind ⟨[], rfl, rfl⟩).bind (hrest.map _)⟩
  obtain ⟨messages, hgives⟩ := whole
  obtain ⟨sheet, hsheet, hrules, -⟩ := parseBehind_ok_iff.1 hgives
  exact ⟨sheet, _, rules, hsheet, hrules⟩

theorem isStatement_unknown : IsStatement "@foo x;" ⟨.atKeyword, "@foo".toList, ⟨1, 1⟩⟩
    [.leaf ⟨.whiteSpace, [' '], ⟨1, 5⟩⟩, .leaf ⟨.ident, ['x'], ⟨1, 6⟩⟩,
      .leaf ⟨.semicolon, [';'], ⟨1, 7⟩⟩] where
  text := by decide +kernel
  keyword_kind := rfl
  ends := ⟨[.leaf ⟨.whiteSpace, [' '], ⟨1, 5⟩⟩, .leaf ⟨.ident, ['x'], ⟨1, 6⟩⟩],
    ⟨.semicolon, [';'], ⟨1, 7⟩⟩, rfl, rfl, by decide⟩

/-- An inclusion ends at its semicolon, and an at-rule that is not known does not. -/
theorem splitsBetween_behind_import :
    (∃ keyword behind, IsStatement "@import x;" keyword behind ∧
      AtRule.wantsBlock keyword behind = false) ∧
    (∀ s, SplitsBetween none "@import x;" s) ∧
    (∃ keyword behind, IsStatement "@foo x;" keyword behind ∧
      AtRule.isPlain keyword behind = true) ∧
    ∃ sheet declarations rules, parse ("@foo x;" ++ "a\x7bb:c\x7d") ⟨none, true⟩ = .ok sheet ∧
      sheet.rules = .style ["@foo x;a"] declarations :: rules := by
  have known : IsStatement "@import x;" ⟨.atKeyword, "@import".toList, ⟨1, 1⟩⟩
      [.leaf ⟨.whiteSpace, [' '], ⟨1, 8⟩⟩, .leaf ⟨.ident, ['x'], ⟨1, 9⟩⟩,
        .leaf ⟨.semicolon, [';'], ⟨1, 10⟩⟩] := by
    refine ⟨by decide +kernel, rfl,
      [.leaf ⟨.whiteSpace, [' '], ⟨1, 8⟩⟩, .leaf ⟨.ident, ['x'], ⟨1, 9⟩⟩],
      ⟨.semicolon, [';'], ⟨1, 10⟩⟩, rfl, rfl, by decide⟩
  have hselectors : selectorsOf none (ofText .start "@foo x;".toList ++
      untilCurly (ofText .start "a\x7bb:c\x7d".toList)) = ["@foo x;a"] := by decide +kernel
  have split := (splitsBetween_of_isStatement known none).1 (by decide +kernel)
  have taken := (splitsBetween_of_isStatement isStatement_unknown none).2 (by decide +kernel)
    "a\x7bb:c\x7d"
  rw [hselectors] at taken
  exact ⟨⟨_, _, known, by decide +kernel⟩, split, ⟨_, _, isStatement_unknown, by decide +kernel⟩,
    taken⟩

/-- The selectors of each rule that a silent reader finds at the outermost level, none for those that
are not style rules. -/
def selectorsIn (css : String) : List (List String) :=
  match parse css ⟨none, true⟩ with
  | .ok sheet => sheet.rules.map Rule.selectors
  | .error _ => []

/-- An at-rule that is not known takes in the selectors of the rule behind its semicolon. -/
theorem not_suffix_behind_unknown :
    (∃ keyword behind, IsStatement "@foo x;" keyword behind) ∧
    ∃ a b, parse "a\x7bb:c\x7d" ⟨none, true⟩ = .ok a ∧
      parse ("@foo x;" ++ "a\x7bb:c\x7d") ⟨none, true⟩ = .ok b ∧ ¬ a.rules <:+ b.rules := by
  obtain ⟨a, ha, -⟩ := parse_strict "a\x7bb:c\x7d" none
  obtain ⟨b, hb, -⟩ := parse_strict ("@foo x;" ++ "a\x7bb:c\x7d") none
  refine ⟨⟨_, _, isStatement_unknown⟩, a, b, ha, hb, fun hsuffix => ?_⟩
  have hleft : selectorsIn "a\x7bb:c\x7d" = [["a"]] := by decide +kernel
  have hright : selectorsIn ("@foo x;" ++ "a\x7bb:c\x7d") = [["@foo x;a"]] := by decide +kernel
  have hselectors := hsuffix.map Rule.selectors
  simp only [selectorsIn, ha, hb] at hleft hright
  rw [hleft, hright] at hselectors
  revert hselectors
  decide

end Stylesheet

end Restyle.Css
