import Restyle.Proofs.Fallbacks

/-!
# Rules and their keys

A rule at the top of a style sheet adds to the object under one key, or to none.  What it does there
is an edit of that object, and no rule looks at the object of another key (`addTopRule_eq`).  So the
keys of a style object are those of its rules in the order in which they come first (`keys_ofRules`),
and the object under a key is made by the edits of its own rules, one after the other
(`get?_ofRules`).

Comments, and rules that no style object shows, make no edit: `Rule.bare?` leaves them out and
`ofRules_bare` says that nothing else is lost.
-/

namespace Restyle.Style

open Css (Rule Declaration DeclarationEntry FrameEntry Frame)

/-- The key of the object that a rule at the top of a style sheet adds to. -/
def topKey? : Rule → Option String
  | .style selectors _ => some (selectorKey selectors)
  | .group (.media query) _ => some ("@media " ++ query)
  | .fontFace _ => some "@font-face"
  | .keyframes name _ _ => some ("@keyframes " ++ name)
  | _ => none

/-- What a rule does to the object under its key. -/
def editBy (o : Options) (object : Object) : Rule → Object
  | .style _ nodes => (declarationsOf nodes).foldl (addDeclaration o) object
  | .group (.media _) rules => rules.foldl (addInMedia o) object
  | .fontFace nodes => (declarationsOf nodes).foldl (addFontFace o) object
  | .keyframes _ _ nodes => (framesOf nodes).foldl (addFrame o) object
  | _ => object

def addsTo (key : String) (rule : Rule) : Bool :=
  topKey? rule == some key

theorem addTopRule_eq (o : Options) (styles : Object) (rule : Rule) : addTopRule o styles rule =
    match topKey? rule with
    | none => styles
    | some key => modifyObject styles key fun object => editBy o object rule := by
  cases rule with
  | group head rules => cases head <;> rfl
  | _ => rfl

/-! ## One rule -/

theorem keys_addTopRule (o : Options) (styles : Object) (rule : Rule) :
    (addTopRule o styles rule).keys = match topKey? rule with
      | none => styles.keys
      | some key => if key ∈ styles.keys then styles.keys else styles.keys ++ [key] := by
  rw [addTopRule_eq]
  cases topKey? rule with
  | none => rfl
  | some key => exact Entries.keys_insert _ _ _

theorem get?_addTopRule_self (o : Options) (styles : Object) {rule : Rule} {key : String}
    (h : addsTo key rule = true) : (addTopRule o styles rule).get? key =
      some (.nested (editBy o (objectAt styles key) rule)) := by
  rw [addTopRule_eq, beq_iff_eq.1 h]
  exact get?_modifyObject_self _ _ _

/-- A rule leaves the objects of other keys as they are. -/
theorem get?_addTopRule_of_ne (o : Options) (styles : Object) {rule : Rule} {key : String}
    (h : addsTo key rule = false) : (addTopRule o styles rule).get? key = styles.get? key := by
  rw [addTopRule_eq]
  cases hkey : topKey? rule with
  | none => rfl
  | some other =>
    refine Entries.get?_insert_of_ne _ _ ?_
    rintro rfl
    rw [addsTo, hkey, beq_self_eq_true] at h
    cases h

/-! ## All rules -/

theorem ofRules_concat (o : Options) (rules : List Rule) (rule : Rule) :
    ofRules o (rules ++ [rule]) = addTopRule o (ofRules o rules) rule := by
  rw [ofRules, List.foldl_concat]
  rfl

theorem keys_ofRules (o : Options) (rules : List Rule) :
    (ofRules o rules).keys = (rules.filterMap topKey?).eraseDups := by
  induction rules using List.reverseRecOn with
  | nil => rfl
  | append_singleton rules rule ih =>
    rw [ofRules_concat, keys_addTopRule, ih, List.filterMap_append]
    cases hkey : topKey? rule with
    | none => simp [hkey]
    | some key => simp [hkey, eraseDups_concat]

theorem nodup_keys_ofRules (o : Options) (rules : List Rule) : (ofRules o rules).keys.Nodup := by
  induction rules using List.reverseRecOn with
  | nil => exact List.nodup_nil
  | append_singleton rules rule ih =>
    rw [ofRules_concat, addTopRule_eq]
    cases topKey? rule with
    | none => exact ih
    | some key => exact Entries.nodup_keys_insert ih _ _

/-- The object under a key is made by the rules of that key alone. -/
theorem get?_ofRules (o : Options) (rules : List Rule) (key : String) :
    (ofRules o rules).get? key = if rules.filter (addsTo key) = [] then none else
      some (.nested ((rules.filter (addsTo key)).foldl (editBy o) [])) := by
  induction rules using List.reverseRecOn with
  | nil => rfl
  | append_singleton rules rule ih =>
    rw [ofRules_concat, List.filter_append]
    cases hadds : addsTo key rule with
    | false =>
      rw [get?_addTopRule_of_ne o _ hadds, ih]
      simp [hadds]
    | true =>
      have before : objectAt (ofRules o rules) key =
          (rules.filter (addsTo key)).foldl (editBy o) [] := by
        rw [objectAt, ih]
        split
        · next hnone => rw [hnone]; rfl
        · rfl
      rw [get?_addTopRule_self o _ hadds, before]
      simp [hadds]

/-- Rules among which those of a key are the same give the same object under it. -/
theorem get?_ofRules_congr (o : Options) {rules others : List Rule} {key : String}
    (h : rules.filter (addsTo key) = others.filter (addsTo key)) :
    (ofRules o rules).get? key = (ofRules o others).get? key := by
  rw [get?_ofRules, get?_ofRules, h]

/-! ## What is left out -/

/-- The declarations of a block without the comments among them. -/
def bareDeclarations (nodes : List DeclarationEntry) : List DeclarationEntry :=
  (declarationsOf nodes).map .declaration

/-- The frames of a block without the comments among them and inside them. -/
def bareFrames (nodes : List FrameEntry) : List FrameEntry :=
  (framesOf nodes).map fun frame =>
    .frame { frame with declarations := bareDeclarations frame.declarations }

/-- A rule inside a media group without its comments.  Only style rules count there. -/
def bareInMedia? : Rule → Option Rule
  | .style selectors nodes => some (.style selectors (bareDeclarations nodes))
  | _ => none

/-- A rule at the top of a style sheet without its comments and without the rules inside it that do
not count.  Comments do not count themselves, nor do rules that no style object shows. -/
def bare? : Rule → Option Rule
  | .style selectors nodes => some (.style selectors (bareDeclarations nodes))
  | .group (.media query) rules => some (.group (.media query) (rules.filterMap bareInMedia?))
  | .fontFace nodes => some (.fontFace (bareDeclarations nodes))
  | .keyframes name vendor nodes => some (.keyframes name vendor (bareFrames nodes))
  | _ => none

theorem declarationsOf_bareDeclarations (nodes : List DeclarationEntry) :
    declarationsOf (bareDeclarations nodes) = declarationsOf nodes := by
  rw [bareDeclarations, declarationsOf, List.filterMap_map]
  exact List.filterMap_some

theorem framesOf_bareFrames (nodes : List FrameEntry) : framesOf (bareFrames nodes) =
    (framesOf nodes).map fun frame =>
      { frame with declarations := bareDeclarations frame.declarations } := by
  rw [bareFrames, framesOf, List.filterMap_map]
  exact congrFun List.filterMap_eq_map _

theorem addFrame_bareDeclarations (o : Options) (block : Object) (frame : Frame) :
    addFrame o block { frame with declarations := bareDeclarations frame.declarations } =
      addFrame o block frame := by
  unfold addFrame
  rw [declarationsOf_bareDeclarations]
  rfl

theorem foldl_addInMedia_bareInMedia? (o : Options) (block : Object) (rules : List Rule) :
    (rules.filterMap bareInMedia?).foldl (addInMedia o) block =
      rules.foldl (addInMedia o) block := by
  rw [List.foldl_filterMap]
  refine List.foldl_ext _ _ _ fun block rule _ => ?_
  cases rule with
  | style selectors nodes =>
    simp only [bareInMedia?, addInMedia, addStyle, declarationsOf_bareDeclarations]
  | _ => rfl

/-- A rule and what counts of it have one key and make one edit. -/
theorem addTopRule_bare? (o : Options) (styles : Object) (rule : Rule) :
    (bare? rule).elim styles (addTopRule o styles) = addTopRule o styles rule := by
  cases rule with
  | style selectors nodes =>
    simp only [bare?, Option.elim, addTopRule, addStyle, declarationsOf_bareDeclarations]
  | group head rules =>
    cases head with
    | media query => simp only [bare?, Option.elim, addTopRule, foldl_addInMedia_bareInMedia?]
    | _ => rfl
  | fontFace nodes => simp only [bare?, Option.elim, addTopRule, declarationsOf_bareDeclarations]
  | keyframes name vendor nodes =>
    simp only [bare?, Option.elim, addTopRule, framesOf_bareFrames, List.foldl_map,
      addFrame_bareDeclarations]
  | _ => rfl

/-- Nothing but what counts of the rules is in a style object. -/
theorem ofRules_bare (o : Options) (rules : List Rule) :
    ofRules o (rules.filterMap bare?) = ofRules o rules := by
  rw [ofRules, List.foldl_filterMap]
  refine List.foldl_ext _ _ _ fun styles rule _ => ?_
  rw [← addTopRule_bare? o styles rule]
  cases bare? rule <;> rfl

/-- **Each key has its own rules.**  The keys of a style object are those of its rules in the order in
which they come first.  There is an object under each of them, and it is the one that the rules of
the key make alone.  So rules of different keys can change places, and what does not count can come
and go: rules of which, key by key, the same counts in the same order have the same objects. -/
theorem ofRules_by_key (o : Options) (rules : List Rule) :
    (ofRules o rules).keys = (rules.filterMap topKey?).eraseDups ∧
    (∀ key, (ofRules o rules).get? key =
      (ofRules o (rules.filter fun rule => topKey? rule == some key)).get? key) ∧
    (∀ key ∈ rules.filterMap topKey?, ∃ object : Object,
      (ofRules o rules).get? key = some (.nested object)) ∧
    ofRules o (rules.filterMap bare?) = ofRules o rules ∧
    ∀ others : List Rule, (∀ key,
      (rules.filterMap bare?).filter (fun rule => topKey? rule == some key) =
        (others.filterMap bare?).filter fun rule => topKey? rule == some key) →
      ∀ key, (ofRules o rules).get? key = (ofRules o others).get? key := by
  refine ⟨keys_ofRules o rules, fun key => ?_, fun key hkey => ?_, ofRules_bare o rules,
    fun others h key => ?_⟩
  · apply get?_ofRules_congr
    rw [show (fun rule => topKey? rule == some key) = addsTo key from rfl, List.filter_filter]
    simp only [Bool.and_self]
  · obtain ⟨rule, hrule, hadds⟩ := List.mem_filterMap.1 hkey
    have hmem : rule ∈ rules.filter (addsTo key) :=
      List.mem_filter.2 ⟨hrule, beq_iff_eq.2 hadds⟩
    rw [get?_ofRules, if_neg (List.ne_nil_of_mem hmem)]
    exact ⟨_, rfl⟩
  · rw [← ofRules_bare o rules, ← ofRules_bare o others]
    exact get?_ofRules_congr o (h key)

/-- Two rules of one key, with a media group, comments and a page put between them or taken away. -/
theorem ofRules_by_key_of_interleaved : ∀ key,
    (ofRules {} [.style [".a"] [.declaration ⟨"top", "0"⟩, .comment "x"],
      .group (.media "print") [.comment "y", .style ["b"] []], .comment "z",
      .style ["#a"] [.declaration ⟨"top", "1"⟩]]).get? key =
    (ofRules {} [.group (.media "print") [.group .host [], .style ["b"] []],
      .style [".a"] [.declaration ⟨"top", "0"⟩], .page [] [],
      .style ["#a"] [.comment "x", .declaration ⟨"top", "1"⟩]]).get? key := by
  have hclass : topKey? (.style [".a"] [.declaration ⟨"top", "0"⟩]) = some "a" := by decide +kernel
  have hid : topKey? (.style ["#a"] [.declaration ⟨"top", "1"⟩]) = some "a" := by decide +kernel
  have hmedia : topKey? (.group (.media "print") [.style ["b"] []]) = some "@media print" := by
    decide +kernel
  refine (ofRules_by_key {} _).2.2.2.2 _ fun key => ?_
  have counts : List.filterMap bare? [.style [".a"] [.declaration ⟨"top", "0"⟩, .comment "x"],
      .group (.media "print") [.comment "y", .style ["b"] []], .comment "z",
      .style ["#a"] [.declaration ⟨"top", "1"⟩]] =
    [.style [".a"] [.declaration ⟨"top", "0"⟩], .group (.media "print") [.style ["b"] []],
      .style ["#a"] [.declaration ⟨"top", "1"⟩]] := rfl
  have counts' : List.filterMap bare? [.group (.media "print") [.group .host [], .style ["b"] []],
      .style [".a"] [.declaration ⟨"top", "0"⟩], .page [] [],
      .style ["#a"] [.comment "x", .declaration ⟨"top", "1"⟩]] =
    [.group (.media "print") [.style ["b"] []], .style [".a"] [.declaration ⟨"top", "0"⟩],
      .style ["#a"] [.declaration ⟨"top", "1"⟩]] := rfl
  rw [counts, counts']
  simp only [List.filter_cons, hclass, hid, hmedia]
  by_cases ha : key = "a"
  · subst ha
    rfl
  · simp [Ne.symm ha]

end Restyle.Style
