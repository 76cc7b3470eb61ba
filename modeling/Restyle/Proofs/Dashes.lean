import Mathlib.Data.List.Forall2
import Restyle.Proofs.Casing
import Restyle.Proofs.Shape
import Restyle.Proofs.UniformRendering

/-!
# Property names with and without dashes

With the option `dashes` a style object has property names with hyphens, without it the same names in
camel case.  Both are written with hyphens again in a style sheet, so the option does not show there
(`toCss_ofRules_dashes`).

The two style objects are built in step.  Entry by entry they have the same values, under the same keys
where these are keys of rules, and under both spellings of one name where they are names of properties
(`EntryRespelled`, `ObjectRespelled`).  As camel case keeps names apart, a name is found in one of them
exactly when it is found in the other, so giving it a value leaves them in step
(`Entries.forall₂_insert`), and so does every rule (`ObjectRespelled.editBy`).

Nothing is said of a style rule whose key starts with `@`: it could add to the object of a media group,
where names of properties would stand among the keys of rules.
-/

namespace Restyle

/-! ## Entries in step -/

namespace Entries

section

variable {α : Type} {R : String × α → String × α → Prop} {key other : String}
  (hkeys : ∀ e f, R e f → (e.1 = key ↔ f.1 = other)) {es fs : Entries α}

include hkeys

theorem rel_get? (h : List.Forall₂ R es fs) :
    Option.Rel (fun v w => R (key, v) (other, w)) (es.get? key) (fs.get? other) := by
  induction h with
  | nil => exact .none
  | @cons e f es fs he _ ih =>
    obtain ⟨k, v⟩ := e
    obtain ⟨l, w⟩ := f
    have hkey : k = key ↔ l = other := hkeys _ _ he
    by_cases hk : k = key
    · obtain rfl := hkey.1 hk
      obtain rfl := hk
      rw [get?, if_pos rfl, get?, if_pos rfl]
      exact .some he
    · rw [get?, if_neg hk, get?, if_neg (mt hkey.2 hk)]
      exact ih

/-- A value goes to the same place in both. -/
theorem forall₂_insert (h : List.Forall₂ R es fs) {v w : α} (hnew : R (key, v) (other, w)) :
    List.Forall₂ R (es.insert key v) (fs.insert other w) := by
  induction h with
  | nil => exact .cons hnew .nil
  | @cons e f es fs he hrest ih =>
    obtain ⟨k, x⟩ := e
    obtain ⟨l, y⟩ := f
    have hkey : k = key ↔ l = other := hkeys _ _ he
    by_cases hk : k = key
    · obtain rfl := hkey.1 hk
      obtain rfl := hk
      rw [insert, if_pos rfl, insert, if_pos rfl]
      exact .cons hnew hrest
    · rw [insert, if_neg hk, insert, if_neg (mt hkey.2 hk)]
      exact .cons he ih

end

end Entries

namespace Style

open Css (Rule Declaration DeclarationEntry FrameEntry Frame)

/-- Entries that are rendered alike one by one are rendered alike. -/
theorem render_congr {es fs : Object}
    (h : List.Forall₂ (fun e f => renderEntry e.1 e.2 = renderEntry f.1 f.2) es fs) :
    render es = render fs := by
  induction h with
  | nil => rfl
  | @cons e f es fs he _ ih => rw [render_cons, render_cons, he, ih]

theorem forall₂_indexed {objects others : List Object} {R : Object → Object → Prop}
    {S : String × Value → String × Value → Prop} (hentry : ∀ key x y, R x y →
      S (key, .nested x) (key, .nested y)) (h : List.Forall₂ R objects others) (i : Nat) :
    List.Forall₂ S (Entries.indexed .nested i objects) (Entries.indexed .nested i others) := by
  induction h generalizing i with
  | nil => exact .nil
  | cons hobject _ ih => exact .cons (hentry _ _ _ hobject) (ih (i + 1))

/-! ## Styles in both spellings -/

/-- A single value under a name with hyphens, and under the name in camel case. -/
structure PropertyRespelled (e f : String × Value) : Prop where
  kebab : IsKebabName e.1
  camel : f.1 = camelCase e.1
  single : e.2.IsSingle
  value : f.2 = e.2

/-- An entry of a style: a property, or the fallbacks with the same properties in them. -/
inductive EntryRespelled : String × Value → String × Value → Prop
  | property {e f : String × Value} (h : PropertyRespelled e f) : EntryRespelled e f
  | fallbacks {objects others : List Object}
    (h : List.Forall₂ (List.Forall₂ PropertyRespelled) objects others) :
    EntryRespelled (Object.fallbackKey, .fallbacks objects) (Object.fallbackKey, .fallbacks others)

/-- Two styles in step. -/
def StyleRespelled (style other : Object) : Prop :=
  List.Forall₂ EntryRespelled style other

theorem isKebabName_fallbackKey : IsKebabName Object.fallbackKey :=
  ⟨Object.fallbackKey.toList, [], by decide, nofun, (List.append_nil _).symm⟩

theorem camelCase_fallbackKey : camelCase Object.fallbackKey = Object.fallbackKey := by
  have hword : Text.isWord Object.fallbackKey.toList = true := by decide
  have hothers : ∀ w ∈ ([] : List (List Char)), Text.isWord w = true := nofun
  exact camelCase_of_words hword hothers

theorem EntryRespelled.names {e f : String × Value} (h : EntryRespelled e f) :
    IsKebabName e.1 ∧ f.1 = camelCase e.1 := by
  cases h with
  | property h => exact ⟨h.kebab, h.camel⟩
  | fallbacks _ => exact ⟨isKebabName_fallbackKey, camelCase_fallbackKey.symm⟩

/-- A name is found in both styles or in neither. -/
theorem EntryRespelled.name_iff {name : String} (hname : IsKebabName name) (e f : String × Value)
    (h : EntryRespelled e f) : e.1 = name ↔ f.1 = camelCase name := by
  obtain ⟨he, hf⟩ := h.names
  rw [hf, camelCase_inj he hname]

theorem Value.IsSingle.members?_eq_none {v : Value} (h : v.IsSingle) : v.members? = none := by
  cases v <;> first | rfl | exact h.elim

theorem PropertyRespelled.renderEntry_eq {e f : String × Value} (h : PropertyRespelled e f) :
    renderEntry e.1 e.2 = renderEntry f.1 f.2 := by
  have hmembers := h.single.members?_eq_none
  rw [h.value, h.camel, renderEntry_line hmembers, renderEntry_line hmembers,
    kebabCase_of_isKebabName h.kebab, (kebabCase_camelCase h.kebab).2]

namespace StyleRespelled

variable {style other : Object} (h : StyleRespelled style other)

include h

theorem render_eq : render style = render other := by
  refine render_congr (List.Forall₂.imp (fun e f he => ?_) h)
  cases he with
  | property he => exact he.renderEntry_eq
  | fallbacks hobjects =>
    have hrender : ∀ key x y, List.Forall₂ PropertyRespelled x y →
        renderEntry key (.nested x) = renderEntry key (.nested y) := by
      intro key x y hxy
      rw [renderEntry_block rfl, renderEntry_block rfl,
        render_congr (hxy.imp fun _ _ => PropertyRespelled.renderEntry_eq)]
    rw [renderEntry_block rfl, renderEntry_block rfl,
      render_congr (forall₂_indexed hrender hobjects 0)]

theorem insert {name : String} {v : Value} (hname : IsKebabName name) (hv : v.IsSingle) :
    StyleRespelled (style.insert name v) (other.insert (camelCase name) v) :=
  Entries.forall₂_insert (EntryRespelled.name_iff hname) h (.property ⟨hname, rfl, hv, rfl⟩)

theorem rel_get? {name : String} (hname : IsKebabName name) :
    Option.Rel (fun v w => EntryRespelled (name, v) (camelCase name, w)) (style.get? name)
      (other.get? (camelCase name)) :=
  Entries.rel_get? (EntryRespelled.name_iff hname) h

theorem fallbacksIn :
    List.Forall₂ (List.Forall₂ PropertyRespelled) (fallbacksIn style) (fallbacksIn other) := by
  have hget := h.rel_get? isKebabName_fallbackKey
  rw [camelCase_fallbackKey] at hget
  unfold Style.fallbacksIn
  generalize style.get? Object.fallbackKey = found at hget ⊢
  generalize other.get? Object.fallbackKey = found' at hget ⊢
  cases hget with
  | none => exact .nil
  | @some v w hentry =>
    cases hentry with
    | fallbacks hobjects => exact hobjects
    | property hproperty =>
      obtain ⟨-, -, hv, rfl⟩ := hproperty
      dsimp only at hv ⊢
      cases w with
      | fallbacks _ => exact hv.elim
      | _ => exact .nil

theorem insert_fallbacks {objects others : List Object}
    (hobjects : List.Forall₂ (List.Forall₂ PropertyRespelled) objects others) :
    StyleRespelled (style.insert Object.fallbackKey (.fallbacks objects))
      (other.insert Object.fallbackKey (.fallbacks others)) := by
  have hname := EntryRespelled.name_iff isKebabName_fallbackKey
  rw [camelCase_fallbackKey] at hname
  exact Entries.forall₂_insert hname h (.fallbacks hobjects)

/-- A value that is given again makes a fallback in both styles, at the same moment. -/
theorem give {name : String} {v : Value} (hname : IsKebabName name) (hv : v.IsSingle) :
    StyleRespelled (give style (name, v)) (give other (camelCase name, v)) := by
  have hget := h.rel_get? hname
  unfold Style.give
  dsimp only
  generalize style.get? name = found at hget ⊢
  generalize other.get? (camelCase name) = found' at hget ⊢
  cases hget with
  | none => exact h.insert hname hv
  | @some previous previous' hentry =>
    dsimp only
    rw [addFallback_eq_insert, addFallback_eq_insert]
    by_cases hfallback : name = Object.fallbackKey
    · -- the list that the earlier value makes is itself replaced
      subst hfallback
      have hinsert := h.insert hname hv
      rwa [camelCase_fallbackKey, Entries.insert_insert_self, Entries.insert_insert_self]
    · cases hentry with
      | fallbacks _ => exact absurd rfl hfallback
      | property hprevious =>
        exact (h.insert_fallbacks (.cons (.cons hprevious .nil) h.fallbacksIn)).insert hname hv

end StyleRespelled

/-! ## Declarations -/

section

variable {o : Options} {style other : Object} (h : StyleRespelled style other) {d : Declaration}
  (hd : IsKebabName d.property)

include h hd

theorem StyleRespelled.addDeclaration :
    StyleRespelled (addDeclaration { o with dashes := true } style d)
      (addDeclaration { o with dashes := false } other d) := by
  have hgive := h.give hd (isSingle_declaredValue o d)
  rw [← propertyKey_of_isKebabName hd] at hgive
  exact hgive

theorem StyleRespelled.addFontFace :
    StyleRespelled (addFontFace { o with dashes := true } style d)
      (addFontFace { o with dashes := false } other d) := by
  have hinsert := h.insert hd (v := .scalar d.value) trivial
  rw [← propertyKey_of_isKebabName hd] at hinsert
  exact hinsert

theorem StyleRespelled.addFrameDeclaration :
    StyleRespelled (addFrameDeclaration { o with dashes := true } style d)
      (addFrameDeclaration { o with dashes := false } other d) := by
  have hinsert := h.insert hd (isSingle_withoutUnit d.value o.effectiveUnit)
  rw [← propertyKey_of_isKebabName hd] at hinsert
  exact hinsert

end

/-! ## Blocks -/

/-- Two objects under the same key, related in the way that belongs to the key. -/
inductive BlockRespelled (S : String → Object → Object → Prop) :
    String × Value → String × Value → Prop
  | intro {key : String} {object other : Object} (h : S key object other) :
    BlockRespelled S (key, .nested object) (key, .nested other)

section

variable {S : String → Object → Object → Prop} {es fs : Object}
  (h : List.Forall₂ (BlockRespelled S) es fs)

include h

theorem render_blocks (hrender : ∀ key object other, S key object other → render object = render other) :
    render es = render fs := by
  refine render_congr (h.imp fun e f hblock => ?_)
  obtain ⟨hobject⟩ := hblock
  rw [renderEntry_block rfl, renderEntry_block rfl, hrender _ _ _ hobject]

/-- The same edit of the object under a key. -/
theorem modifyObject_blocks {key : String} (hnil : S key [] []) {edit edit' : Object → Object}
    (hedit : ∀ object other, S key object other → S key (edit object) (edit' other)) :
    List.Forall₂ (BlockRespelled S) (modifyObject es key edit) (modifyObject fs key edit') := by
  have hkeys : ∀ e f, BlockRespelled S e f → (e.1 = key ↔ f.1 = key) := by
    rintro _ _ ⟨-⟩
    exact Iff.rfl
  have hobject : S key (objectAt es key) (objectAt fs key) := by
    have hget := Entries.rel_get? hkeys h
    unfold objectAt
    generalize es.get? key = found at hget ⊢
    generalize fs.get? key = found' at hget ⊢
    cases hget with
    | none => exact hnil
    | some hblock =>
      obtain ⟨hobject⟩ := hblock
      exact hobject
  exact Entries.forall₂_insert hkeys h (.intro (hedit _ _ hobject))

end

/-- Two objects with styles in step under the same keys. -/
def StylesRespelled : Object → Object → Prop :=
  List.Forall₂ (BlockRespelled fun _ => StyleRespelled)

/-- Whether the object under a key at the top has styles in it, as those of media groups and keyframes
have. -/
def holdsStyles (key : String) : Bool :=
  "@media ".toList.isPrefixOf key.toList || "@keyframes ".toList.isPrefixOf key.toList

theorem holdsStyles_eq_false {key : String} (h : key.toList.head? ≠ some '@') :
    holdsStyles key = false := by
  unfold holdsStyles
  cases hkey : key.toList with
  | nil => rfl
  | cons c cs =>
    have hc : ('@' == c) = false := by
      refine beq_false_of_ne ?_
      rintro rfl
      exact h (by rw [hkey, List.head?_cons])
    simp [List.isPrefixOf, hc]

/-- Two objects in step under a key at the top. -/
def ObjectRespelled (key : String) (object other : Object) : Prop :=
  if holdsStyles key then StylesRespelled object other else StyleRespelled object other

theorem ObjectRespelled.render_eq {key : String} {object other : Object}
    (h : ObjectRespelled key object other) : render object = render other := by
  unfold ObjectRespelled at h
  split at h
  · exact render_blocks h fun _ _ _ => StyleRespelled.render_eq
  · exact h.render_eq

theorem ObjectRespelled.nil (key : String) : ObjectRespelled key [] [] := by
  unfold ObjectRespelled
  split <;> exact .nil

/-! ## Rules -/

/-- The declarations of a rule inside a media group that count. -/
def declarationsInMedia : Rule → List Declaration
  | .style _ nodes => declarationsOf nodes
  | _ => []

/-- The declarations of a rule that a style object shows. -/
def shownDeclarations : Rule → List Declaration
  | .style _ nodes => declarationsOf nodes
  | .group (.media _) rules => rules.flatMap declarationsInMedia
  | .fontFace nodes => declarationsOf nodes
  | .keyframes _ _ nodes => (framesOf nodes).flatMap fun frame => declarationsOf frame.declarations
  | _ => []

/-- The key of a style rule does not start as those of at-rules do. -/
def HasPlainKey : Rule → Prop
  | .style selectors _ => (selectorKey selectors).toList.head? ≠ some '@'
  | _ => True

section

variable (o : Options) {object other : Object}

theorem StylesRespelled.addInMedia (h : StylesRespelled object other) {rule : Rule}
    (hnames : ∀ d ∈ declarationsInMedia rule, IsKebabName d.property) :
    StylesRespelled (addInMedia { o with dashes := true } object rule)
      (addInMedia { o with dashes := false } other rule) := by
  cases rule with
  | style selectors nodes =>
    unfold Style.addInMedia addStyle
    refine modifyObject_blocks h .nil fun style other hstyle => ?_
    exact List.foldl_rel hstyle fun d hd _ _ hstyle => hstyle.addDeclaration (hnames d hd)
  | _ => exact h

theorem StylesRespelled.addFrame (h : StylesRespelled object other) {frame : Frame}
    (hnames : ∀ d ∈ declarationsOf frame.declarations, IsKebabName d.property) :
    StylesRespelled (addFrame { o with dashes := true } object frame)
      (addFrame { o with dashes := false } other frame) := by
  refine modifyObject_blocks h .nil fun style other hstyle => ?_
  exact List.foldl_rel hstyle fun d hd _ _ hstyle => hstyle.addFrameDeclaration (hnames d hd)

/-- A rule leaves the two objects under its key in step. -/
theorem ObjectRespelled.editBy {key : String} (h : ObjectRespelled key object other) {rule : Rule}
    (hkey : topKey? rule = some key) (hplain : HasPlainKey rule)
    (hnames : ∀ d ∈ shownDeclarations rule, IsKebabName d.property) :
    ObjectRespelled key (editBy { o with dashes := true } object rule)
      (editBy { o with dashes := false } other rule) := by
  unfold ObjectRespelled at h ⊢
  cases rule with
  | style selectors nodes =>
    obtain rfl := Option.some.inj hkey
    rw [holdsStyles_eq_false hplain, if_neg Bool.false_ne_true] at h ⊢
    exact List.foldl_rel h fun d hd _ _ hstyle => hstyle.addDeclaration (hnames d hd)
  | group head rules =>
    cases head with
    | media query =>
      obtain rfl := Option.some.inj hkey
      have hstyles : holdsStyles ("@media " ++ query) = true := by
        simp [holdsStyles]
      rw [hstyles, if_pos rfl] at h ⊢
      exact List.foldl_rel h fun rule hrule _ _ hstyles => hstyles.addInMedia o fun d hd =>
        hnames d (List.mem_flatMap.2 ⟨rule, hrule, hd⟩)
    | _ => cases hkey
  | fontFace nodes =>
    obtain rfl := Option.some.inj hkey
    have hstyle : holdsStyles "@font-face" = false := by decide
    rw [hstyle, if_neg Bool.false_ne_true] at h ⊢
    exact List.foldl_rel h fun d hd _ _ hstyle => hstyle.addFontFace (hnames d hd)
  | keyframes name vendor nodes =>
    obtain rfl := Option.some.inj hkey
    have hstyles : holdsStyles ("@keyframes " ++ name) = true := by
      simp [holdsStyles]
    rw [hstyles, if_pos rfl] at h ⊢
    exact List.foldl_rel h fun frame hframe _ _ hstyles => hstyles.addFrame o fun d hd =>
      hnames d (List.mem_flatMap.2 ⟨frame, hframe, hd⟩)
  | _ => cases hkey

/-- All rules, one after the other. -/
theorem ofRules_respelled {rules : List Rule} (hplain : ∀ rule ∈ rules, HasPlainKey rule)
    (hnames : ∀ rule ∈ rules, ∀ d ∈ shownDeclarations rule, IsKebabName d.property) :
    List.Forall₂ (BlockRespelled ObjectRespelled) (ofRules { o with dashes := true } rules)
      (ofRules { o with dashes := false } rules) := by
  refine List.foldl_rel .nil fun rule hrule styles others h => ?_
  rw [addTopRule_eq, addTopRule_eq]
  cases hkey : topKey? rule with
  | none => exact h
  | some key =>
    exact modifyObject_blocks h (.nil key) fun _ _ hobject =>
      hobject.editBy o hkey (hplain rule hrule) (hnames rule hrule)

end

/-- **Dashes do not show in style sheets.**  If the names of all declared properties are words with
hyphens between them, and no style rule at the top has a key that starts with `@`, the style objects with
dashes and without them have the same style sheet. -/
theorem toCss_ofRules_dashes (o : Options) (rules : List Rule)
    (hplain : ∀ rule ∈ rules, HasPlainKey rule)
    (hnames : ∀ rule ∈ rules, ∀ d ∈ shownDeclarations rule, IsKebabName d.property) :
    toCss (ofRules { o with dashes := true } rules) =
      toCss (ofRules { o with dashes := false } rules) := by
  rw [toCss_eq_render, toCss_eq_render]
  exact render_blocks (ofRules_respelled o hplain hnames) fun _ _ _ => ObjectRespelled.render_eq

/-- A name declared again, a media group and keyframes. -/
theorem toCss_ofRules_dashes_of_fallback :
    toCss (ofRules { unit := some "px", dashes := true } [
        .style [".a"] [.declaration ⟨"border-top-width", "1em"⟩, .declaration ⟨"border-top-width", "2px"⟩],
        .group (.media "print") [.style ["#a"] [.declaration ⟨"color", "red"⟩]],
        .keyframes "b" none [.frame ⟨["from", "50%"], [.declaration ⟨"border-top-width", "0px"⟩]⟩]]) =
      toCss (ofRules { unit := some "px", dashes := false } [
        .style [".a"] [.declaration ⟨"border-top-width", "1em"⟩, .declaration ⟨"border-top-width", "2px"⟩],
        .group (.media "print") [.style ["#a"] [.declaration ⟨"color", "red"⟩]],
        .keyframes "b" none [.frame ⟨["from", "50%"], [.declaration ⟨"border-top-width", "0px"⟩]⟩]]) := by
  have hwidth : IsKebabName "border-top-width" :=
    ⟨"border".toList, ["top".toList, "width".toList], by decide, by decide, rfl⟩
  have hcolor : IsKebabName "color" := ⟨"color".toList, [], by decide, nofun, rfl⟩
  refine toCss_ofRules_dashes { unit := some "px" } _ ?_ ?_
  · simp [HasPlainKey, selectorKey]
  · simp [shownDeclarations, declarationsInMedia, declarationsOf, framesOf, hwidth, hcolor]

end Style

end Restyle
