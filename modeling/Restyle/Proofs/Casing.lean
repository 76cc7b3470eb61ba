import Mathlib.Data.List.Basic
import Mathlib.Data.Set.Function
import Restyle.Proofs.Letters
import Restyle.Style.PropertyName

/-!
# Words of names in both spellings

Names of properties are made of words: a small letter with small letters and digits behind it.  A style
sheet puts hyphens between the words, a style object writes the words behind the first one with a
capital.  `camelCase` and `kebabCase` lead from one spelling of the same words to the other
(`camelCase_of_words`, `kebabCase_of_words`), so neither loses anything.

The name of a vendor's property has one more hyphen in front, and its key a capital.  No two properties
have one key (`propertyKey_injOn`).
-/

namespace Restyle

namespace Text

/-! ## Letters and digits -/

/-- The characters of words. -/
def isWordChar (c : Char) : Bool :=
  c.isLower || c.isDigit

section

variable {c : Char} (h : isWordChar c = true)

include h

theorem forall_isWordChar {p : Char → Bool} (hlower : ∀ n < 26, p (Char.ofNat (97 + n)) = true)
    (hdigit : ∀ n < 10, p (Char.ofNat (48 + n)) = true) : p c = true :=
  (Bool.or_eq_true_iff.1 h).elim (forall_isLower hlower) (forall_isDigit hdigit)

theorem isAlphanum_of_isWordChar : c.isAlphanum = true :=
  forall_isWordChar h (by decide) (by decide)

theorem ascii_of_isWordChar : c.toNat < 0x80 :=
  ascii_of_isAlphanum (isAlphanum_of_isWordChar h)

theorem isUpper_of_isWordChar : c.isUpper = false := by
  have hnot := forall_isWordChar (p := fun c => !c.isUpper) h (by decide) (by decide)
  rwa [Bool.not_eq_true'] at hnot

theorem toLower_of_isWordChar : c.toLower = c :=
  beq_iff_eq.1 (forall_isWordChar (p := fun c => c.toLower == c) h (by decide) (by decide))

end

theorem ascii_toUpper {c : Char} (h : c.isLower = true) : c.toUpper.toNat < 0x80 :=
  ascii_of_isAlphanum (isAlphanum_iff.2 (.inl (isAlpha_iff.2 (.inl (isUpper_toUpper h)))))

/-! ## Words -/

/-- A small letter with small letters and digits behind it. -/
def isWord : List Char → Bool
  | [] => false
  | c :: cs => c.isLower && cs.all isWordChar

/-- A capital with small letters and digits behind it. -/
def isCapitalWord : List Char → Bool
  | [] => false
  | c :: cs => c.isUpper && cs.all isWordChar

/-- A word with a capital in front. -/
def withCapital : List Char → List Char
  | [] => []
  | c :: cs => c.toUpper :: cs

/-- Words with a hyphen in front of each. -/
def hyphened (words : List (List Char)) : List Char :=
  words.flatMap fun word => '-' :: word

section

variable {word : List Char} (h : isWord word = true)

include h

theorem exists_cons_of_isWord :
    ∃ c cs, word = c :: cs ∧ c.isLower = true ∧ ∀ d ∈ cs, isWordChar d = true := by
  cases word with
  | nil => cases h
  | cons c cs =>
    obtain ⟨hc, hcs⟩ := Bool.and_eq_true_iff.1 h
    exact ⟨c, cs, rfl, hc, List.all_eq_true.1 hcs⟩

theorem isWordChar_of_mem : ∀ c ∈ word, isWordChar c = true := by
  obtain ⟨c, cs, rfl, hc, hcs⟩ := exists_cons_of_isWord h
  intro d hd
  rcases List.mem_cons.1 hd with rfl | hd
  · rw [isWordChar, hc, Bool.true_or]
  · exact hcs d hd

theorem isEmpty_of_isWord : word.isEmpty = false := by
  obtain ⟨c, cs, rfl, -, -⟩ := exists_cons_of_isWord h
  rfl

theorem isCapitalWord_withCapital : isCapitalWord (withCapital word) = true := by
  obtain ⟨c, cs, rfl, hc, hcs⟩ := exists_cons_of_isWord h
  exact Bool.and_eq_true_iff.2 ⟨isUpper_toUpper hc, List.all_eq_true.2 hcs⟩

theorem ascii_of_mem_withCapital : ∀ c ∈ withCapital word, c.toNat < 0x80 := by
  obtain ⟨c, cs, rfl, hc, hcs⟩ := exists_cons_of_isWord h
  intro d hd
  rcases List.mem_cons.1 hd with rfl | hd
  · exact ascii_toUpper hc
  · exact ascii_of_isWordChar (hcs d hd)

end

/-- Every capitalised word is a word with a capital in front. -/
theorem exists_withCapital {word : List Char} (h : isCapitalWord word = true) :
    ∃ w, isWord w = true ∧ word = withCapital w := by
  cases word with
  | nil => cases h
  | cons c cs =>
    obtain ⟨hc, hcs⟩ := Bool.and_eq_true_iff.1 h
    refine ⟨c.toLower :: cs, Bool.and_eq_true_iff.2 ⟨isLower_toLower hc, hcs⟩, ?_⟩
    rw [withCapital, toUpper_toLower hc]

theorem exists_words {others : List (List Char)} (h : ∀ w ∈ others, isCapitalWord w = true) :
    ∃ words : List (List Char), (∀ w ∈ words, isWord w = true) ∧
      others.flatten = words.flatMap withCapital := by
  induction others with
  | nil => exact ⟨[], nofun, rfl⟩
  | cons w others ih =>
    obtain ⟨word, hword, rfl⟩ := exists_withCapital (h w List.mem_cons_self)
    obtain ⟨words, hwords, heq⟩ := ih fun v hv => h v (List.mem_cons_of_mem _ hv)
    refine ⟨word :: words, List.forall_mem_cons.2 ⟨hword, hwords⟩, ?_⟩
    rw [List.flatten_cons, heq, List.flatMap_cons]

/-! ### Finding the words -/

/-- A row of small letters and digits goes on with the word that is being read. -/
theorem wordsFrom_append {cs : List Char} (hcs : ∀ c ∈ cs, isWordChar c = true) {rest : List Char}
    (hrest : ∀ c ∈ rest.head?, isUpper c = false) (mode : WordCase) (word : List Char) :
    ∃ mode', wordsFrom mode word (cs ++ rest) = wordsFrom mode' (cs.reverse ++ word) rest := by
  induction cs generalizing mode word with
  | nil => exact ⟨mode, rfl⟩
  | cons c cs ih =>
    have hword : ∀ d ∈ c :: cs, d.toNat < 0x80 ∧ isUpper d = false ∧ isAlphanumeric d = true := by
      intro d hd
      have hascii := ascii_of_isWordChar (hcs d hd)
      refine ⟨hascii, ?_, ?_⟩
      · rw [isUpper_of_ascii hascii, isUpper_of_isWordChar (hcs d hd)]
      · rw [isAlphanumeric_of_ascii hascii, isAlphanum_of_isWordChar (hcs d hd)]
    obtain ⟨-, hupper, halnum⟩ := hword c List.mem_cons_self
    have hnext : (cs ++ rest).head?.any isUpper = false := by
      cases cs with
      | nil =>
        cases rest with
        | nil => rfl
        | cons d ds => exact hrest d rfl
      | cons d ds => exact (hword d (List.mem_cons_of_mem _ List.mem_cons_self)).2.1
    obtain ⟨mode', heq⟩ := ih (fun d hd => hcs d (List.mem_cons_of_mem _ hd)) (mode.next c) (c :: word)
    refine ⟨mode', ?_⟩
    rw [List.cons_append, wordsFrom, halnum, hnext, hupper]
    simpa using heq

/-- Words with hyphens between them are found again. -/
theorem words_hyphened {word : List Char} (hword : isWord word = true) {others : List (List Char)}
    (h : ∀ w ∈ others, isWord w = true) : words (word ++ hyphened others) = word :: others := by
  unfold words
  generalize WordCase.none = mode
  induction others generalizing word mode with
  | nil =>
    have hend : ∀ c ∈ ([] : List Char).head?, isUpper c = false := nofun
    obtain ⟨mode', heq⟩ := wordsFrom_append (isWordChar_of_mem hword) hend mode []
    rw [show hyphened [] = [] from rfl, heq, wordsFrom, closeWord]
    simp [isEmpty_of_isWord hword]
  | cons w others ih =>
    have hbehind : hyphened (w :: others) = '-' :: (w ++ hyphened others) := by
      simp [hyphened]
    have hhyphen : ∀ c ∈ ('-' :: (w ++ hyphened others)).head?, isUpper c = false := by
      rintro c ⟨⟩
      decide
    have hstop : (!isAlphanumeric '-') = true := by decide
    obtain ⟨mode', heq⟩ := wordsFrom_append (isWordChar_of_mem hword) hhyphen mode []
    rw [hbehind, heq, wordsFrom, if_pos hstop, closeWord, List.append_nil,
      ih (h w List.mem_cons_self) fun v hv => h v (List.mem_cons_of_mem _ hv)]
    simp [isEmpty_of_isWord hword]

theorem lowerWord_of_isWordChar {cs : List Char} (h : ∀ c ∈ cs, isWordChar c = true) :
    lowerWord cs = cs := by
  induction cs with
  | nil => rfl
  | cons c cs ih =>
    have hc := h c List.mem_cons_self
    have hsigma : c ≠ 'Σ' := by
      rintro rfl
      exact absurd hc (by decide)
    rw [lowerWord, ih fun d hd => h d (List.mem_cons_of_mem _ hd),
      toLower_of_ascii (ascii_of_isWordChar hc), toLower_of_isWordChar hc]
    simp [hsigma]

theorem capitalWord_of_isWord {word : List Char} (h : isWord word = true) :
    capitalWord word = withCapital word := by
  have hchars := isWordChar_of_mem h
  obtain ⟨c, cs, rfl, -, hcs⟩ := exists_cons_of_isWord h
  rw [capitalWord, toUpper_of_ascii (ascii_of_isWordChar (hchars c List.mem_cons_self)),
    lowerWord_of_isWordChar hcs]
  rfl

theorem map_toLower_of_isWordChar {cs : List Char} (h : ∀ c ∈ cs, isWordChar c = true) :
    cs.map Char.toLower = cs :=
  (List.map_congr_left fun c hc => toLower_of_isWordChar (h c hc)).trans (List.map_id cs)

theorem map_toLower_withCapital {word : List Char} (h : isWord word = true) :
    (withCapital word).map Char.toLower = word := by
  obtain ⟨c, cs, rfl, hc, hcs⟩ := exists_cons_of_isWord h
  rw [withCapital, List.map_cons, toLower_toUpper hc, map_toLower_of_isWordChar hcs]

/-- The lower case of ASCII characters does not depend on what stands around them. -/
theorem lowercase_of_ascii {cs : List Char} (h : ∀ c ∈ cs, c.toNat < 0x80) :
    lowercase cs = cs.map Char.toLower := by
  unfold lowercase
  generalize [] = before
  induction cs generalizing before with
  | nil => rfl
  | cons c cs ih =>
    have hc := h c List.mem_cons_self
    have hsigma : c ≠ 'Σ' := by
      rintro rfl
      exact absurd hc (by decide)
    rw [lowercaseAfter, ih fun d hd => h d (List.mem_cons_of_mem _ hd), if_neg hsigma,
      toLower_of_ascii hc]
    rfl

end Text

namespace Style

open Text (isWord isCapitalWord isWordChar withCapital hyphened)

/-! ## Both spellings -/

/-- Words with hyphens between them. -/
def IsKebabName (name : String) : Prop :=
  ∃ (word : List Char) (others : List (List Char)), isWord word = true ∧
    (∀ w ∈ others, isWord w = true) ∧ name.toList = word ++ hyphened others

/-- A word and words with a capital. -/
def IsCamelName (name : String) : Prop :=
  ∃ (word : List Char) (others : List (List Char)), isWord word = true ∧
    (∀ w ∈ others, isCapitalWord w = true) ∧ name.toList = word ++ others.flatten

/-- A character with a hyphen in front if it is a capital. -/
def splitCapital (c : Char) : List Char :=
  if c.isUpper then ['-', c] else [c]

theorem hyphenate_cons (c : Char) (cs : List Char) :
    hyphenate (c :: cs) = c :: cs.flatMap splitCapital := rfl

theorem flatMap_splitCapital {cs : List Char} (h : ∀ c ∈ cs, isWordChar c = true) :
    cs.flatMap splitCapital = cs := by
  induction cs with
  | nil => rfl
  | cons c cs ih =>
    have hlower := Text.isUpper_of_isWordChar (h c List.mem_cons_self)
    rw [List.flatMap_cons, ih fun d hd => h d (List.mem_cons_of_mem _ hd)]
    simp [splitCapital, hlower]

theorem flatMap_splitCapital_withCapital {word : List Char} (h : isWord word = true) :
    (withCapital word).flatMap splitCapital = '-' :: withCapital word := by
  obtain ⟨c, cs, rfl, hc, hcs⟩ := Text.exists_cons_of_isWord h
  have hupper := Text.isUpper_toUpper hc
  rw [withCapital, List.flatMap_cons, flatMap_splitCapital hcs]
  simp [splitCapital, hupper]

section

variable {word : List Char} (hword : isWord word = true) {others : List (List Char)}
  (h : ∀ w ∈ others, isWord w = true)

include hword h

theorem camelCase_of_words : camelCase (String.ofList (word ++ hyphened others)) =
    String.ofList (word ++ others.flatMap withCapital) := by
  have hcapital : others.flatMap Text.capitalWord = others.flatMap withCapital :=
    List.flatMap_congr fun w hw => Text.capitalWord_of_isWord (h w hw)
  unfold camelCase
  rw [String.toList_ofList, Text.words_hyphened hword h]
  dsimp only
  rw [hcapital, Text.lowerWord_of_isWordChar (Text.isWordChar_of_mem hword)]

omit hword in
/-- Hyphens come in front of the words behind the first one, whatever that starts with. -/
theorem hyphenate_of_words (c : Char) {cs : List Char} (hcs : ∀ d ∈ cs, isWordChar d = true) :
    hyphenate (c :: cs ++ others.flatMap withCapital) =
      c :: cs ++ others.flatMap fun w => '-' :: withCapital w := by
  have hothers : (others.flatMap withCapital).flatMap splitCapital =
      others.flatMap fun w => '-' :: withCapital w := by
    rw [List.flatMap_assoc]
    exact List.flatMap_congr fun w hw => flatMap_splitCapital_withCapital (h w hw)
  rw [List.cons_append, hyphenate_cons, List.flatMap_append, flatMap_splitCapital hcs, hothers,
    List.cons_append]

omit hword in
/-- The words of a key in lower case.  Its first letter may be a capital. -/
theorem kebabCase_of_first {c : Char} (hc : c.toNat < 0x80) {cs : List Char}
    (hcs : ∀ d ∈ cs, isWordChar d = true) :
    kebabCase (String.ofList (c :: cs ++ others.flatMap withCapital)) =
      String.ofList (c.toLower :: cs ++ hyphened others) := by
  have hascii : ∀ d ∈ c :: cs ++ others.flatMap fun w => '-' :: withCapital w, d.toNat < 0x80 := by
    intro d hd
    rcases List.mem_append.1 hd with hd | hd
    · rcases List.mem_cons.1 hd with rfl | hd
      · exact hc
      · exact Text.ascii_of_isWordChar (hcs d hd)
    · obtain ⟨w, hw, hd⟩ := List.mem_flatMap.1 hd
      rcases List.mem_cons.1 hd with rfl | hd
      · decide
      · exact Text.ascii_of_mem_withCapital (h w hw) d hd
  have hothers : (others.flatMap fun w => '-' :: withCapital w).map Char.toLower =
      hyphened others := by
    rw [List.map_flatMap]
    refine List.flatMap_congr fun w hw => ?_
    rw [List.map_cons, Text.map_toLower_withCapital (h w hw)]
    rfl
  unfold kebabCase
  rw [String.toList_ofList, hyphenate_of_words h c hcs, Text.lowercase_of_ascii hascii,
    List.map_append, List.map_cons, Text.map_toLower_of_isWordChar hcs, hothers]

theorem kebabCase_of_words : kebabCase (String.ofList (word ++ others.flatMap withCapital)) =
    String.ofList (word ++ hyphened others) := by
  have hchars := Text.isWordChar_of_mem hword
  obtain ⟨c, cs, rfl, -, hcs⟩ := Text.exists_cons_of_isWord hword
  have hc := hchars c List.mem_cons_self
  rw [kebabCase_of_first h (Text.ascii_of_isWordChar hc) hcs, Text.toLower_of_isWordChar hc]

/-- A capital in front does not show in lower case. -/
theorem kebabCase_of_capitalWords :
    kebabCase (String.ofList (withCapital word ++ others.flatMap withCapital)) =
      String.ofList (word ++ hyphened others) := by
  obtain ⟨c, cs, rfl, hc, hcs⟩ := Text.exists_cons_of_isWord hword
  rw [withCapital, kebabCase_of_first h (Text.ascii_toUpper hc) hcs, Text.toLower_toUpper hc]

end

/-- Camel case keeps every name with hyphens. -/
theorem kebabCase_camelCase {name : String} (h : IsKebabName name) :
    IsCamelName (camelCase name) ∧ kebabCase (camelCase name) = name := by
  obtain ⟨word, others, hword, hothers, hname⟩ := h
  have heq : name = String.ofList (word ++ hyphened others) := by
    rw [← hname, String.ofList_toList]
  rw [heq, camelCase_of_words hword hothers]
  refine ⟨⟨word, others.map withCapital, hword, ?_, ?_⟩, kebabCase_of_words hword hothers⟩
  · intro w hw
    obtain ⟨v, hv, rfl⟩ := List.mem_map.1 hw
    exact Text.isCapitalWord_withCapital (hothers v hv)
  · rw [String.toList_ofList, List.flatMap_def]

/-- Hyphens keep every name in camel case. -/
theorem camelCase_kebabCase {name : String} (h : IsCamelName name) :
    IsKebabName (kebabCase name) ∧ camelCase (kebabCase name) = name := by
  obtain ⟨word, others, hword, hothers, hname⟩ := h
  obtain ⟨words, hwords, hflatten⟩ := Text.exists_words hothers
  have heq : name = String.ofList (word ++ words.flatMap withCapital) := by
    rw [← hflatten, ← hname, String.ofList_toList]
  rw [heq, kebabCase_of_words hword hwords]
  exact ⟨⟨word, words, hword, hwords, String.toList_ofList⟩, camelCase_of_words hword hwords⟩

/-- Camel case keeps names apart. -/
theorem camelCase_inj {name other : String} (hname : IsKebabName name) (hother : IsKebabName other) :
    camelCase name = camelCase other ↔ name = other := by
  refine ⟨fun h => ?_, congrArg camelCase⟩
  rw [← (kebabCase_camelCase hname).2, h, (kebabCase_camelCase hother).2]

/-- Names with hyphens have no capitals, so there is nothing to split. -/
theorem kebabCase_of_isKebabName {name : String} (h : IsKebabName name) : kebabCase name = name := by
  obtain ⟨word, others, hword, hothers, hname⟩ := h
  have hchars : ∀ c ∈ word ++ hyphened others, c = '-' ∨ isWordChar c = true := by
    intro c hc
    rcases List.mem_append.1 hc with hc | hc
    · exact .inr (Text.isWordChar_of_mem hword c hc)
    · obtain ⟨w, hw, hc⟩ := List.mem_flatMap.1 hc
      exact (List.mem_cons.1 hc).imp_right (Text.isWordChar_of_mem (hothers w hw) c)
  have hsmall : ∀ c ∈ word ++ hyphened others, c.isUpper = false ∧ c.toNat < 0x80 ∧ c.toLower = c := by
    intro c hc
    rcases hchars c hc with rfl | hc
    · decide
    · exact ⟨Text.isUpper_of_isWordChar hc, Text.ascii_of_isWordChar hc, Text.toLower_of_isWordChar hc⟩
  have hsplit : hyphenate (word ++ hyphened others) = word ++ hyphened others := by
    obtain ⟨c, cs, rfl, -, -⟩ := Text.exists_cons_of_isWord hword
    have hrest : (cs ++ hyphened others).flatMap splitCapital =
        (cs ++ hyphened others).flatMap fun d => [d] :=
      List.flatMap_congr fun d hd => by
        rw [splitCapital, (hsmall d (List.mem_cons_of_mem _ hd)).1, if_neg Bool.false_ne_true]
    rw [List.cons_append, hyphenate_cons, hrest, List.flatMap_singleton']
  have hlower : (word ++ hyphened others).map Char.toLower = word ++ hyphened others :=
    (List.map_congr_left fun c hc => (hsmall c hc).2.2).trans (List.map_id _)
  unfold kebabCase
  rw [hname, hsplit, Text.lowercase_of_ascii fun c hc => (hsmall c hc).2.1, hlower, ← hname,
    String.ofList_toList]

/-- No name with hyphens is that of a vendor. -/
theorem propertyKey_of_isKebabName {name : String} (h : IsKebabName name) :
    propertyKey name false = camelCase name := by
  obtain ⟨word, others, hword, -, hname⟩ := h
  obtain ⟨c, cs, rfl, hc, -⟩ := Text.exists_cons_of_isWord hword
  have hhead : name.toList.head? ≠ some '-' := by
    rw [hname]
    rintro heq
    rw [Option.some.inj heq] at hc
    cases hc
  unfold propertyKey
  rw [if_neg Bool.false_ne_true, if_neg (by simpa using hhead)]

/-! ## Properties of vendors -/

/-- A name with hyphens, or one of a vendor: the same with one more hyphen in front. -/
def IsPropertyName (property : String) : Prop :=
  ∃ name, IsKebabName name ∧ (property = name ∨ property = "-" ++ name)

/-- A hyphen in front of a name is no part of a word. -/
theorem camelCase_hyphen (name : String) : camelCase ("-" ++ name) = camelCase name := by
  have hstop : (!Text.isAlphanumeric '-') = true := by decide
  have hwords : Text.words ("-" ++ name).toList = Text.words name.toList := by
    rw [String.toList_append]
    change Text.wordsFrom .none [] ('-' :: name.toList) = _
    rw [Text.wordsFrom, if_pos hstop]
    rfl
  unfold camelCase
  rw [hwords]

section

variable {word : List Char} (hword : isWord word = true) {others : List (List Char)}
  (h : ∀ w ∈ others, isWord w = true)

include hword h

/-- The property of a vendor has a capital where the hyphen was. -/
theorem propertyKey_hyphen_of_words :
    propertyKey ("-" ++ String.ofList (word ++ hyphened others)) false =
      String.ofList (withCapital word ++ others.flatMap withCapital) := by
  have hhead : ("-" ++ String.ofList (word ++ hyphened others)).toList.head? = some '-' := by
    rw [String.toList_append]
    rfl
  unfold propertyKey
  rw [if_neg Bool.false_ne_true, if_pos (beq_iff_eq.2 hhead), camelCase_hyphen,
    camelCase_of_words hword h]
  have hchars := Text.isWordChar_of_mem hword
  obtain ⟨c, cs, rfl, -, -⟩ := Text.exists_cons_of_isWord hword
  unfold capitalized
  rw [String.toList_ofList, List.cons_append]
  dsimp only
  rw [Text.toUpper_of_ascii (Text.ascii_of_isWordChar (hchars c List.mem_cons_self))]
  rfl

end

/-- Of the property of a vendor the name is left. -/
theorem kebabCase_propertyKey_hyphen {name : String} (h : IsKebabName name) :
    kebabCase (propertyKey ("-" ++ name) false) = name := by
  obtain ⟨word, others, hword, hothers, hname⟩ := h
  have heq : name = String.ofList (word ++ hyphened others) := by
    rw [← hname, String.ofList_toList]
  rw [heq, propertyKey_hyphen_of_words hword hothers, kebabCase_of_capitalWords hword hothers]

/-- A key says by its first letter whether it is that of a vendor. -/
theorem isUpper_head?_propertyKey {name : String} (h : IsKebabName name) :
    (propertyKey name false).toList.head?.any Char.isUpper = false ∧
      (propertyKey ("-" ++ name) false).toList.head?.any Char.isUpper = true := by
  have hkey := propertyKey_of_isKebabName h
  obtain ⟨word, others, hword, hothers, hname⟩ := h
  have heq : name = String.ofList (word ++ hyphened others) := by
    rw [← hname, String.ofList_toList]
  rw [hkey, heq, camelCase_of_words hword hothers, propertyKey_hyphen_of_words hword hothers,
    String.toList_ofList, String.toList_ofList]
  have hchars := Text.isWordChar_of_mem hword
  obtain ⟨c, cs, rfl, hc, -⟩ := Text.exists_cons_of_isWord hword
  exact ⟨Text.isUpper_of_isWordChar (hchars c List.mem_cons_self), Text.isUpper_toUpper hc⟩

/-- No two properties have one key. -/
theorem propertyKey_injOn : Set.InjOn (propertyKey · false) {property | IsPropertyName property} := by
  rintro property ⟨name, hname, hproperty⟩ other ⟨otherName, hotherName, hother⟩ hkeys
  replace hkeys : propertyKey property false = propertyKey other false := hkeys
  have hkebab : ∀ {p n : String}, IsKebabName n → p = n ∨ p = "-" ++ n →
      kebabCase (propertyKey p false) = n := by
    rintro p n hn (rfl | rfl)
    · rw [propertyKey_of_isKebabName hn, (kebabCase_camelCase hn).2]
    · exact kebabCase_propertyKey_hyphen hn
  have hnames : name = otherName := by
    rw [← hkebab hname hproperty, hkeys, hkebab hotherName hother]
  subst hnames
  obtain ⟨hplain, hvendor⟩ := isUpper_head?_propertyKey hname
  rcases hproperty with rfl | rfl <;> rcases hother with rfl | rfl
  · rfl
  · rw [hkeys, hvendor] at hplain
    cases hplain
  · rw [← hkeys, hvendor] at hplain
    cases hplain
  · rfl

/-- **Both spellings say the same.**  Camel case and hyphens are inverse to each other on names of
words, and hyphens take the key of a vendor's property back to its name without the hyphen in front.
So no two properties, of vendors or not, have one key. -/
theorem spellings_correspond :
    Set.BijOn camelCase {name | IsKebabName name} {key | IsCamelName key} ∧
    (∀ name, IsKebabName name → kebabCase (camelCase name) = name) ∧
    (∀ name, IsKebabName name → kebabCase (propertyKey ("-" ++ name) false) = name) ∧
    (∀ key, IsCamelName key → camelCase (kebabCase key) = key) ∧
    Set.InjOn (propertyKey · false) {property | IsPropertyName property} := by
  have hback : ∀ name, IsKebabName name → kebabCase (camelCase name) = name :=
    fun name h => (kebabCase_camelCase h).2
  have hthere : ∀ key, IsCamelName key → camelCase (kebabCase key) = key :=
    fun key h => (camelCase_kebabCase h).2
  have hinverse : Set.InvOn kebabCase camelCase {name | IsKebabName name} {key | IsCamelName key} :=
    ⟨hback, hthere⟩
  refine ⟨hinverse.bijOn ?_ ?_, hback, fun name => kebabCase_propertyKey_hyphen, hthere,
    propertyKey_injOn⟩
  · intro name h
    exact (kebabCase_camelCase h).1
  · intro key h
    exact (camelCase_kebabCase h).1

/-- Words of one letter are kept apart, and so are digits behind a letter. -/
theorem spellings_correspond_of_letters : IsKebabName "x-y2-z" ∧ IsCamelName "xY2Z" ∧
    kebabCase (camelCase "x-y2-z") = "x-y2-z" ∧ kebabCase (propertyKey "-x-y2-z" false) = "x-y2-z" ∧
    camelCase (kebabCase "xY2Z") = "xY2Z" ∧
    propertyKey "x-y2-z" false ≠ propertyKey "-x-y2-z" false := by
  have hname : IsKebabName "x-y2-z" := ⟨['x'], [['y', '2'], ['z']], rfl, by decide, rfl⟩
  have hkey : IsCamelName "xY2Z" := ⟨['x'], [['Y', '2'], ['Z']], rfl, by decide, rfl⟩
  have hproperty : "-x-y2-z" = "-" ++ "x-y2-z" := by decide
  obtain ⟨-, hback, hvendor, hthere, hinj⟩ := spellings_correspond
  refine ⟨hname, hkey, hback _ hname, ?_, hthere _ hkey, fun heq => ?_⟩
  · rw [hproperty]
    exact hvendor _ hname
  · exact absurd (hinj ⟨_, hname, .inl rfl⟩ ⟨_, hname, .inr hproperty⟩ heq) (by decide)

end Style

end Restyle
