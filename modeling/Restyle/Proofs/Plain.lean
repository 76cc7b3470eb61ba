import Restyle.Proofs.ReadBack

/-!
# Plain texts

A plain text is what a selector, a prelude or a value is written with most of the time: ASCII letters,
digits and a few signs, with blanks between them.  It is inert, no white space has to be trimmed off it,
and a list of such texts comes apart at its commas only.
-/

namespace Restyle.Css

/-- ASCII letters, digits and the signs of selectors, numbers and names. -/
def isPlainChar (c : Char) : Bool :=
  c.isAlphanum || ['.', '#', '-', '_', ':', '%'].contains c

/-- Letters, digits and the marks of classes and of identities. -/
def isPlainStart (c : Char) : Bool :=
  c.isAlphanum || ['.', '#'].contains c

/-- A text of plain characters and blanks that starts with a letter, a digit, `.` or `#` and does not
end in a blank. -/
def isPlainText (text : String) : Bool :=
  text.toList.head?.any isPlainStart && text.toList.all (fun c => isPlainChar c || c == ' ') &&
    text.toList.getLast? != some ' '

/-- An identifier of ASCII letters, digits, hyphens and underscores that starts with a letter. -/
def isPlainName (name : String) : Bool :=
  name.toList.head?.any Char.isAlpha &&
    name.toList.all fun c => c.isAlphanum || c == '-' || c == '_'

/-- The name of a vendor: small letters between two hyphens. -/
def IsVendor (vendor : String) : Prop :=
  ∃ letters : List Char, letters ≠ [] ∧ (∀ c ∈ letters, c.isLower = true) ∧
    vendor.toList = '-' :: letters ++ ['-']

/-! ## Characters -/

theorem isBlank_of_isPlainChar {c : Char} (h : isPlainChar c = true) : Text.isBlank c = false := by
  rcases Bool.or_eq_true_iff.1 h with halnum | hsign
  · exact Text.isBlank_of_graphic (Text.graphic_of_isAlphanum halnum)
  · exact Token.eq_false_of_mem (by decide) (List.contains_iff_mem.1 hsign)

theorem isPlainChar_of_isPlainStart {c : Char} (h : isPlainStart c = true) :
    isPlainChar c = true := by
  rcases Bool.or_eq_true_iff.1 h with halnum | hsign
  · rw [isPlainChar, halnum, Bool.true_or]
  · have hall : ['.', '#'].all isPlainChar = true := by decide
    exact List.all_eq_true.1 hall c (List.contains_iff_mem.1 hsign)

theorem startsPiece_of_isPlainStart {c : Char} (h : isPlainStart c = true) :
    Token.startsPiece c = true :=
  Token.startsPiece_of_not_mem (Token.not_mem_of_class (by decide) h)

/-- Plain characters, blanks and commas. -/
def isPlainOrBlank (c : Char) : Bool :=
  isPlainChar c || c == ' ' || c == ','

theorem inert_of_isPlainOrBlank {cs : List Char} (h : ∀ c ∈ cs, isPlainOrBlank c = true) :
    Token.Inert cs :=
  Token.inert_of_forall (by decide) h

/-! ## Texts -/

section

variable {text : String} (h : isPlainText text = true)

include h

theorem exists_cons_of_isPlainText : ∃ x v, text.toList = x :: v ∧ isPlainStart x = true := by
  have hhead := (Bool.and_eq_true_iff.1 (Bool.and_eq_true_iff.1 h).1).1
  cases hlist : text.toList with
  | nil => rw [hlist] at hhead; cases hhead
  | cons x v =>
    rw [hlist] at hhead
    exact ⟨x, v, rfl, hhead⟩

theorem isPlainOrBlank_of_mem {c : Char} (hc : c ∈ text.toList) : isPlainOrBlank c = true := by
  have hchars := (Bool.and_eq_true_iff.1 (Bool.and_eq_true_iff.1 h).1).2
  rw [isPlainOrBlank, List.all_eq_true.1 hchars c hc, Bool.true_or]

theorem comma_not_mem : ',' ∉ text.toList := by
  intro hmem
  have hchars := (Bool.and_eq_true_iff.1 (Bool.and_eq_true_iff.1 h).1).2
  exact absurd (List.all_eq_true.1 hchars ',' hmem) (by decide)

theorem ne_empty_of_isPlainText : text ≠ "" := by
  obtain ⟨x, v, hlist, -⟩ := exists_cons_of_isPlainText h
  rintro rfl
  cases hlist

theorem isBlank_of_mem_getLast? {c : Char} (hc : c ∈ text.toList.getLast?) :
    Text.isBlank c = false := by
  obtain ⟨hfront, hlast⟩ := Bool.and_eq_true_iff.1 h
  have hchars := (Bool.and_eq_true_iff.1 hfront).2
  have hplain := List.all_eq_true.1 hchars c (List.mem_of_mem_getLast? hc)
  have hne : c ≠ ' ' := by
    rintro rfl
    rw [Option.mem_def.1 hc] at hlast
    cases hlast
  rw [beq_eq_false_iff_ne.2 hne, Bool.or_false] at hplain
  exact isBlank_of_isPlainChar hplain

theorem trim_of_isPlainText : Text.trim text.toList = text.toList := by
  obtain ⟨x, v, hlist, hx⟩ := exists_cons_of_isPlainText h
  refine Text.trim_eq_self (fun c hc => ?_) fun c hc => isBlank_of_mem_getLast? h hc
  rw [hlist] at hc
  obtain rfl := Option.some.inj hc
  exact isBlank_of_isPlainChar (isPlainChar_of_isPlainStart hx)

/-- Blanks around a plain text are all that is trimmed. -/
theorem trim_blank_isPlainText {behind : List Char} (hbehind : ∀ c ∈ behind, c = ' ') :
    Text.trim (' ' :: (text.toList ++ behind)) = text.toList := by
  have hblank : ∀ c ∈ behind, Text.isBlank c = true := fun c hc => by rw [hbehind c hc]; rfl
  have hlead : ∀ c ∈ [' '], Text.isBlank c = true := List.forall_mem_singleton.2 rfl
  have htrim := Text.trim_append_left hlead (text.toList ++ behind)
  rw [Text.trim_append_right hblank, trim_of_isPlainText h] at htrim
  exact htrim

end

theorem isPlainOrBlank_of_mem_list {texts : List String} (h : ∀ t ∈ texts, isPlainText t = true)
    {c : Char} (hc : c ∈ [',', ' '].intercalate (texts.map String.toList)) :
    isPlainOrBlank c = true := by
  induction texts with
  | nil => cases hc
  | cons t texts ih =>
    have ht : ∀ c ∈ t.toList, isPlainOrBlank c = true := fun c hc =>
      isPlainOrBlank_of_mem (h t List.mem_cons_self) hc
    cases texts with
    | nil => exact ht c (by simpa using hc)
    | cons u texts =>
      rw [List.map_cons, List.map_cons, List.intercalate_cons_cons] at hc
      rcases List.mem_append.1 hc with hc | hc
      · rcases List.mem_append.1 hc with hc | hc
        · exact ht c hc
        · have hall : [',', ' '].all isPlainOrBlank = true := by decide
          exact List.all_eq_true.1 hall c hc
      · exact ih (fun t ht => h t (List.mem_cons_of_mem _ ht)) hc

/-- A list of plain texts comes apart into these texts. -/
theorem selectorsOf_plain {text : String} {texts : List String}
    (h : ∀ t ∈ text :: texts, isPlainText t = true) {lead behind : List Char}
    (hlead : ∀ c ∈ lead, c = ' ') (hbehind : ∀ c ∈ behind, c = ' ') :
    selectorsOf none (Component.leaves
      (lead ++ ([',', ' '].intercalate ((text :: texts).map String.toList) ++ behind))) =
      text :: texts := by
  have hinert : Token.Inert
      (lead ++ ([',', ' '].intercalate ((text :: texts).map String.toList) ++ behind)) := by
    refine inert_of_isPlainOrBlank fun c hc => ?_
    simp only [List.mem_append] at hc
    rcases hc with hc | hc | hc
    · rw [hlead c hc]; decide
    · exact isPlainOrBlank_of_mem_list h hc
    · rw [hbehind c hc]; decide
  have hall : ∀ {p : List Char → Prop}, (∀ t, isPlainText t = true → p t.toList) →
      ∀ cs ∈ (text :: texts).map String.toList, p cs := fun hp cs hcs => by
    obtain ⟨t, ht, rfl⟩ := List.mem_map.1 hcs
    exact hp t (h t ht)
  rw [List.map_cons] at hinert hall ⊢
  rw [selectorsOf_leaves hinert hlead hbehind (hall fun t ht => comma_not_mem ht)
    (hall fun t ht => trim_of_isPlainText ht), ← List.map_cons, List.map_map]
  simp [Function.comp_def]

/-! ## Names -/

section

variable {name : String} (h : isPlainName name = true)

include h

theorem head?_of_isPlainName : ∃ c, name.toList.head? = some c ∧ c.isAlpha = true := by
  obtain ⟨hhead, -⟩ := Bool.and_eq_true_iff.1 h
  exact (Option.any_eq_true _ _).1 hhead

theorem isName_of_isPlainName : Token.IsName name.toList := by
  obtain ⟨c, hc, halpha⟩ := head?_of_isPlainName h
  obtain ⟨cs, hlist⟩ := List.head?_eq_some_iff.1 hc
  refine ⟨?_, fun d hd => ?_⟩
  · have hne : ∀ {d : Char}, d.isAlpha = false → c ≠ d := Token.ne_of_isAlpha halpha
    rw [hlist, Token.startsIdent_cons, if_neg (hne rfl), if_neg (hne rfl), isNameStart, halpha]
    rfl
  · have hd' := List.all_eq_true.1 (Bool.and_eq_true_iff.1 h).2 d hd
    simp only [Char.isAlphanum, Bool.or_eq_true, beq_iff_eq] at hd'
    simp only [isNameChar, isNameStart, Bool.or_eq_true, beq_iff_eq]
    rcases hd' with ((hletter | hdigit) | rfl) | rfl
    · simp [hletter]
    · simp [hdigit]
    · simp
    · simp

theorem isPlainOrBlank_of_mem_isPlainName {c : Char} (hc : c ∈ name.toList) :
    isPlainOrBlank c = true := by
  have hc' := List.all_eq_true.1 (Bool.and_eq_true_iff.1 h).2 c hc
  simp only [Bool.or_eq_true, beq_iff_eq] at hc'
  rcases hc' with (halnum | rfl) | rfl
  · simp [isPlainOrBlank, isPlainChar, halnum]
  · decide
  · decide

theorem isBlank_of_mem_isPlainName {c : Char} (hc : c ∈ name.toList) : Text.isBlank c = false := by
  have hc' := List.all_eq_true.1 (Bool.and_eq_true_iff.1 h).2 c hc
  simp only [Bool.or_eq_true, beq_iff_eq] at hc'
  rcases hc' with (halnum | rfl) | rfl
  · exact Text.isBlank_of_graphic (Text.graphic_of_isAlphanum halnum)
  · decide
  · decide

end

/-! ## Keywords -/

/-- Small letters and hyphens, with which keywords are written. -/
def isKeywordChar (c : Char) : Bool :=
  c.isLower || c == '-'

theorem decode_eq_self {cs : List Char} (h : ∀ c ∈ cs, isKeywordChar c = true) :
    Name.decode cs = cs := by
  induction cs with
  | nil => rw [Name.decode]
  | cons c cs ih =>
    have hc : c ∉ ['\\', '\x00'] :=
      Token.not_mem_of_class (by decide) (h c List.mem_cons_self)
    simp only [List.mem_cons, List.not_mem_nil, or_false, not_or] at hc
    rw [Name.decode, if_neg (by simp [hc.1]), if_neg (by simp [hc.2]),
      ih fun d hd => h d (List.mem_cons_of_mem _ hd)]

theorem toLower_of_isKeywordChar {c : Char} (h : isKeywordChar c = true) : c.toLower = c := by
  rcases Bool.or_eq_true_iff.1 h with hlower | hminus
  · exact Text.toLower_of_isLower hlower
  · rw [beq_iff_eq.1 hminus]
    rfl

theorem keyword_keywordToken {name : List Char} (h : ∀ c ∈ name, isKeywordChar c = true) :
    (keywordToken name).keyword = name := by
  have htext : (keywordToken name).text.drop 1 = name := rfl
  have hlower : asciiLower name = name.map id :=
    List.map_congr_left fun c hc => toLower_of_isKeywordChar (h c hc)
  rw [Token.keyword, htext, decode_eq_self h, hlower, List.map_id]

theorem isName_of_isKeywordChar {name : List Char} (hstart : startsIdent name = true)
    (h : ∀ c ∈ name, isKeywordChar c = true) : Token.IsName name := by
  refine ⟨hstart, fun c hc => ?_⟩
  simp only [isNameChar, isNameStart, Bool.or_eq_true]
  rcases Bool.or_eq_true_iff.1 (h c hc) with hlower | hminus
  · simp [Text.isAlpha_of_isLower hlower]
  · simp [hminus]

/-! ### Keywords with a vendor in front -/

/-- The text of a vendor, which may be missing. -/
def vendorText (vendor : Option String) : List Char :=
  (vendor.getD "").toList

namespace AtRule

variable {vendor : Option String} (h : ∀ v ∈ vendor, IsVendor v)

include h

theorem isKeywordChar_of_mem_vendorText : ∀ c ∈ vendorText vendor, isKeywordChar c = true := by
  intro c hc
  cases vendor with
  | none => cases hc
  | some v =>
    obtain ⟨letters, -, hletters, hlist⟩ := h v rfl
    rw [vendorText, Option.getD_some, hlist] at hc
    simp only [List.cons_append, List.mem_cons, List.mem_append, List.not_mem_nil, or_false] at hc
    rcases hc with rfl | hc | rfl
    · decide
    · rw [isKeywordChar, hletters c hc, Bool.true_or]
    · decide

theorem startsIdent_vendorText {name : List Char} (hname : startsIdent name = true) :
    startsIdent (vendorText vendor ++ name) = true := by
  cases vendor with
  | none => exact hname
  | some v =>
    obtain ⟨letters, hne, hletters, hlist⟩ := h v rfl
    obtain ⟨c, cs, rfl⟩ := List.exists_cons_of_ne_nil hne
    have hc : c.isAlpha = true := Text.isAlpha_of_isLower (hletters c List.mem_cons_self)
    rw [vendorText, Option.getD_some, hlist]
    simp [startsIdent, isNameStart, hc]

/-- The vendor in front of a keyword is found again. -/
theorem vendor?_vendorText (name : List Char) :
    vendor? name (vendorText vendor ++ name) = some vendor := by
  have hsuffix : name.isSuffixOf (vendorText vendor ++ name) = true := by
    rw [List.isSuffixOf_iff_suffix]
    exact List.suffix_append _ _
  have htake : (vendorText vendor ++ name).take ((vendorText vendor ++ name).length - name.length) =
      vendorText vendor := by
    rw [List.length_append, Nat.add_sub_cancel, List.take_left]
  unfold vendor?
  dsimp only
  rw [if_pos hsuffix, htake]
  cases vendor with
  | none => rfl
  | some v =>
    obtain ⟨letters, hne, -, hlist⟩ := h v rfl
    have hlength : 0 < letters.length := List.length_pos_iff.2 hne
    rw [vendorText, Option.getD_some, if_neg (by simp [hlist]), if_pos, String.ofList_toList]
    rw [hlist]
    simp only [List.cons_append, List.length_cons, List.length_append, List.length_nil,
      Bool.and_eq_true, decide_eq_true_eq, List.head?_cons, beq_self_eq_true, and_true]
    refine ⟨by omega, ?_⟩
    rw [← List.cons_append, List.getLast?_concat]
    rfl

theorem ofKeyword?_keyframes :
    ofKeyword? (vendorText vendor ++ "keyframes".toList) = some (.keyframes vendor) := by
  unfold ofKeyword?
  rw [vendor?_vendorText h]

theorem ofKeyword?_document :
    ofKeyword? (vendorText vendor ++ "document".toList) = some (.document vendor) := by
  have hother : vendor? "keyframes".toList (vendorText vendor ++ "document".toList) = none := by
    unfold vendor?
    rw [if_neg]
    rw [List.isSuffixOf_iff_suffix]
    -- the two keywords end in different letters
    rintro ⟨front, heq⟩
    have hlast := congrArg List.getLast? heq
    simp [List.getLast?_append] at hlast
  unfold ofKeyword?
  rw [hother, vendor?_vendorText h]

end AtRule

end Restyle.Css
