import Restyle.Proofs.RuleKeys

/-!
# The shape of style objects

Whatever the rules of a style sheet are, their style object has an object under every key, and in these
objects there are texts, numbers, further objects and lists of fallbacks, but no other lists, no truth
values and no `null` (`ofRules_shape`).  Names are free, so a property can be called `fallbacks`, and a
rule can have the key of a media group.  What keeps the shape is that an object is changed in two ways
only.

* A declaration gives a value to a name.  The value that it replaces may be anything that stands there,
  even an object of a nested rule, and goes into the fallbacks, unless it is the list of fallbacks itself
  (`IsStyle.give`).
* A rule changes the object under a key, and what else is there gives way (`IsStyle.modifyObject`).

`IsStyle P` is the invariant of an object whose values are among `P`.  The objects of rules inside rules
hold single values (`Value.IsSingle`), those of rules at the top single values and such objects
(`Value.IsMember`).
-/

namespace Restyle.Style

open Css (Rule Declaration DeclarationEntry FrameEntry Frame)

/-! ## What stands in an object -/

/-- A value that stands under a key somewhere in an object: in one of its entries, or in an object or a
list of fallbacks under another key.  Nothing is looked for in other lists: where one stands, that it
stands there is already said. -/
inductive Object.Occurs (key : String) (value : Value) : Object → Prop
  | here {es : Object} (h : (key, value) ∈ es) : Object.Occurs key value es
  | nested {es inner : Object} {above : String} (hmem : (above, .nested inner) ∈ es)
    (h : Object.Occurs key value inner) : Object.Occurs key value es
  | fallbacks {es inner : Object} {above : String} {objects : List Object}
    (hmem : (above, .fallbacks objects) ∈ es) (hinner : inner ∈ objects)
    (h : Object.Occurs key value inner) : Object.Occurs key value es

section

variable {key : String} {v : Value}

@[simp] theorem Object.not_occurs_nil : ¬ Object.Occurs key v [] := by
  rintro (h | ⟨h, -⟩ | ⟨h, -, -⟩) <;> cases h

theorem Object.Occurs.mono {es fs : Object} (h : es.Occurs key v) (hsub : es ⊆ fs) :
    fs.Occurs key v := by
  cases h with
  | here h => exact .here (hsub h)
  | nested hmem h => exact .nested (hsub hmem) h
  | fallbacks hmem hinner h => exact .fallbacks (hsub hmem) hinner h

/-- What stands in an object stands in its first entry or in the others. -/
theorem Object.occurs_cons {name : String} {u : Value} {es : Object} :
    Object.Occurs key v ((name, u) :: es) ↔ (name = key ∧ u = v) ∨
      (∃ inner : Object, u = .nested inner ∧ inner.Occurs key v) ∨
      (∃ objects : List Object, u = .fallbacks objects ∧ ∃ inner ∈ objects, inner.Occurs key v) ∨
      es.Occurs key v := by
  constructor
  · intro h
    cases h with
    | here h =>
      rcases List.mem_cons.1 h with heq | h
      · cases heq
        exact .inl ⟨rfl, rfl⟩
      · exact .inr (.inr (.inr (.here h)))
    | nested hmem h =>
      rcases List.mem_cons.1 hmem with heq | hmem
      · cases heq
        exact .inr (.inl ⟨_, rfl, h⟩)
      · exact .inr (.inr (.inr (.nested hmem h)))
    | fallbacks hmem hinner h =>
      rcases List.mem_cons.1 hmem with heq | hmem
      · cases heq
        exact .inr (.inr (.inl ⟨_, rfl, _, hinner, h⟩))
      · exact .inr (.inr (.inr (.fallbacks hmem hinner h)))
  · rintro (⟨rfl, rfl⟩ | ⟨inner, rfl, h⟩ | ⟨objects, rfl, inner, hinner, h⟩ | h)
    · exact .here List.mem_cons_self
    · exact .nested List.mem_cons_self h
    · exact .fallbacks List.mem_cons_self hinner h
    · exact h.mono (List.subset_cons_self _ _)

end

/-- Whether a value may stand under a key: a text, a number, an object, or under `fallbacks` a list of
objects that has one at least and only such with one entry. -/
def Value.Fits (key : String) : Value → Prop
  | .scalar _ | .number _ | .nested _ => True
  | .fallbacks objects =>
    key = Object.fallbackKey ∧ objects ≠ [] ∧ ∀ object ∈ objects, object.length = 1
  | .list _ | .boolean _ | .null => False

/-- A text or a number. -/
def Value.IsSingle : Value → Prop
  | .scalar _ | .number _ => True
  | _ => False

theorem isSingle_withoutUnit (value : String) (unit : Option String) :
    (withoutUnit value unit).IsSingle := by
  unfold withoutUnit
  split
  · trivial
  · split
    · trivial
    · split <;> trivial

theorem isSingle_declaredValue (o : Options) (d : Declaration) : (declaredValue o d).IsSingle := by
  have h := isSingle_withoutUnit d.value o.effectiveUnit
  unfold declaredValue
  split
  · trivial
  · exact h

/-! ## Styles -/

/-- One earlier value at least, each of them under a name of its own. -/
def IsFallbacks (P : Value → Prop) (objects : List Object) : Prop :=
  objects ≠ [] ∧ ∀ object ∈ objects, ∃ name v, object = [(name, v)] ∧ P v

/-- The object that a rule changes is a new one, or it stands under the key. -/
theorem objectAt_eq_nil_or_mem (styles : Object) (key : String) :
    objectAt styles key = [] ∨ (key, .nested (objectAt styles key)) ∈ styles := by
  cases hget : styles.get? key with
  | none => exact .inl (objectAt_of_get?_none hget)
  | some v =>
    cases v with
    | nested es =>
      rw [objectAt_of_get? hget]
      exact .inr (Entries.mem_of_get? hget)
    | _ =>
      refine .inl ?_
      rw [objectAt, hget]
      rfl

/-- Names with values of which `P` holds, no name twice.  Under `fallbacks` there may be a list of
earlier values instead. -/
structure IsStyle (P : Value → Prop) (style : Object) : Prop where
  nodup : style.keys.Nodup
  entry : ∀ e ∈ style, P e.2 ∨
    e.1 = Object.fallbackKey ∧ ∃ objects, e.2 = .fallbacks objects ∧ IsFallbacks P objects

namespace IsStyle

variable {P Q : Value → Prop} {style : Object}

theorem nil : IsStyle P [] :=
  ⟨List.nodup_nil, nofun⟩

theorem insert (h : IsStyle P style) (name : String) {v : Value} (hv : P v) :
    IsStyle P (style.insert name v) := by
  refine ⟨Entries.nodup_keys_insert h.nodup name v, fun e he => ?_⟩
  rcases Entries.mem_of_mem_insert he with rfl | he
  · exact .inl hv
  · exact h.entry e he

theorem insert_fallbacks (h : IsStyle P style) {objects : List Object}
    (hobjects : IsFallbacks P objects) :
    IsStyle P (style.insert Object.fallbackKey (.fallbacks objects)) := by
  refine ⟨Entries.nodup_keys_insert h.nodup _ _, fun e he => ?_⟩
  rcases Entries.mem_of_mem_insert he with rfl | he
  · exact .inr ⟨rfl, objects, rfl, hobjects⟩
  · exact h.entry e he

/-- A name other than that of the fallbacks has a value of which `P` holds. -/
theorem of_get? (h : IsStyle P style) {name : String} (hname : name ≠ Object.fallbackKey) {v : Value}
    (hget : style.get? name = some v) : P v :=
  (h.entry _ (Entries.mem_of_get? hget)).resolve_right fun hfallbacks => hname hfallbacks.1

section

variable (hlist : ∀ objects, ¬ P (.fallbacks objects))

include hlist

/-- The list of fallbacks is empty or one of a style. -/
theorem fallbacksIn (h : IsStyle P style) :
    ∀ object ∈ fallbacksIn style, ∃ name v, object = [(name, v)] ∧ P v := by
  unfold Style.fallbacksIn
  split
  · next objects hget =>
    rcases h.entry _ (Entries.mem_of_get? hget) with hP | ⟨-, others, heq, hobjects⟩
    · exact absurd hP (hlist objects)
    · rw [Value.fallbacks.inj heq]
      exact hobjects.2
  · exact nofun

theorem addFallback (h : IsStyle P style) (name : String) {v : Value} (hv : P v) :
    IsStyle P (addFallback style [(name, v)]) := by
  rw [addFallback_eq_insert]
  exact h.insert_fallbacks ⟨List.cons_ne_nil _ _,
    List.forall_mem_cons.2 ⟨⟨name, v, rfl, hv⟩, h.fallbacksIn hlist⟩⟩

/-- A value given to a name.  If the name is `fallbacks`, the list that the earlier values make is
itself replaced. -/
theorem give (h : IsStyle P style) (name : String) {v : Value} (hv : P v) :
    IsStyle P (give style (name, v)) := by
  unfold Style.give
  dsimp only
  split
  · next previous hget =>
    by_cases hname : name = Object.fallbackKey
    · rw [hname, addFallback_eq_insert, Entries.insert_insert_self]
      exact h.insert _ hv
    · exact (h.addFallback hlist name (h.of_get? hname hget)).insert name hv
  · exact h.insert name hv

/-- The declarations of a style rule. -/
theorem declarations (h : IsStyle P style) (hP : ∀ v : Value, v.IsSingle → P v) (o : Options)
    (ds : List Declaration) : IsStyle P (ds.foldl (addDeclaration o) style) :=
  List.foldlRecOn ds (addDeclaration o) h fun _ hstyle d _ =>
    hstyle.give hlist _ (hP _ (isSingle_declaredValue o d))

end

/-- The object under a key is changed where it stands, if there is one. -/
theorem modifyObject (h : IsStyle P style) (hnested : ∀ es, P (.nested es) → IsStyle Q es) (key : String)
    {edit : Object → Object} (hedit : ∀ es, IsStyle Q es → P (.nested (edit es))) :
    IsStyle P (modifyObject style key edit) := by
  have hobject : IsStyle Q (objectAt style key) := by
    rcases objectAt_eq_nil_or_mem style key with hnil | hmem
    · rw [hnil]
      exact nil
    · rcases h.entry _ hmem with hP | ⟨-, _, heq, -⟩
      · exact hnested _ hP
      · cases heq
  exact h.insert key (hedit _ hobject)

end IsStyle

/-! ## The objects of rules -/

/-- What stands in the object of a rule: single values, and styles of single values. -/
inductive Value.IsMember : Value → Prop
  | single {v : Value} (h : v.IsSingle) : Value.IsMember v
  | style {es : Object} (h : IsStyle Value.IsSingle es) : Value.IsMember (.nested es)

theorem not_isSingle_fallbacks (objects : List Object) : ¬ (Value.fallbacks objects).IsSingle := id

theorem not_isMember_fallbacks (objects : List Object) : ¬ (Value.fallbacks objects).IsMember := by
  rintro (h | _)
  exact h

theorem IsStyle.of_isMember {es : Object} (h : (Value.nested es).IsMember) :
    IsStyle Value.IsSingle es := by
  cases h with
  | single h => exact h.elim
  | style h => exact h

section

variable {object : Object} (h : IsStyle Value.IsMember object) (o : Options)

include h

/-- A rule inside a media group changes one style of it. -/
theorem IsStyle.addInMedia (rule : Rule) : IsStyle Value.IsMember (addInMedia o object rule) := by
  cases rule with
  | style selectors nodes =>
    exact h.modifyObject (fun _ => IsStyle.of_isMember) _ fun _ hes =>
      .style (hes.declarations not_isSingle_fallbacks (fun _ => id) o _)
  | _ => exact h

theorem IsStyle.addFrame (frame : Frame) : IsStyle Value.IsMember (addFrame o object frame) :=
  h.modifyObject (fun _ => IsStyle.of_isMember) _ fun _ hes =>
    .style (List.foldlRecOn _ (addFrameDeclaration o) hes fun _ hstyle d _ =>
      hstyle.insert _ (isSingle_withoutUnit d.value o.effectiveUnit))

/-- Every rule keeps the object under its key a style. -/
theorem IsStyle.editBy (rule : Rule) : IsStyle Value.IsMember (editBy o object rule) := by
  cases rule with
  | style selectors nodes =>
    exact h.declarations not_isMember_fallbacks (fun _ => .single) o _
  | group head rules =>
    cases head with
    | media query =>
      exact List.foldlRecOn rules (Style.addInMedia o) h fun _ hblock rule _ => hblock.addInMedia o rule
    | _ => exact h
  | keyframes name vendor nodes =>
    exact List.foldlRecOn _ (Style.addFrame o) h fun _ hblock frame _ => hblock.addFrame o frame
  | fontFace nodes =>
    exact List.foldlRecOn _ (addFontFace o) h fun _ hblock d _ => hblock.insert _ (.single trivial)
  | _ => exact h

end

/-- There are only objects at the top of a style object, and each of them is a style. -/
theorem exists_of_mem_ofRules (o : Options) (rules : List Rule) {e : String × Value}
    (he : e ∈ ofRules o rules) : ∃ object, e.2 = .nested object ∧ IsStyle Value.IsMember object := by
  induction rules using List.reverseRecOn generalizing e with
  | nil => cases he
  | append_singleton rules rule ih =>
    rw [ofRules_concat, addTopRule_eq] at he
    cases hkey : topKey? rule with
    | none => rw [hkey] at he; exact ih he
    | some key =>
      rw [hkey] at he
      rcases Entries.mem_of_mem_insert he with rfl | he
      · refine ⟨_, rfl, IsStyle.editBy ?_ o rule⟩
        rcases objectAt_eq_nil_or_mem (ofRules o rules) key with hnil | hmem
        · rw [hnil]
          exact .nil
        · obtain ⟨object, heq, hobject⟩ := ih hmem
          rwa [Value.nested.inj heq]
      · exact ih he

/-! ## What stands in a style -/

/-- Whatever stands in an object may stand there. -/
def Object.AllFit (es : Object) : Prop :=
  ∀ (key : String) (v : Value), es.Occurs key v → v.Fits key

theorem Object.allFit_of_forall {es : Object} (hfits : ∀ e ∈ es, e.2.Fits e.1)
    (hnested : ∀ e ∈ es, ∀ inner, e.2 = .nested inner → Object.AllFit inner)
    (hfallbacks : ∀ e ∈ es, ∀ objects, e.2 = .fallbacks objects → ∀ inner ∈ objects,
      Object.AllFit inner) : es.AllFit := by
  intro key v hoccurs
  cases hoccurs with
  | here h => exact hfits _ h
  | nested hmem h => exact hnested _ hmem _ rfl key v h
  | fallbacks hmem hinner h => exact hfallbacks _ hmem _ rfl _ hinner key v h

theorem Value.IsSingle.fits {v : Value} (h : v.IsSingle) (key : String) : v.Fits key := by
  cases v with
  | scalar _ | number _ => trivial
  | _ => exact h.elim

section

variable {P : Value → Prop} (hP : ∀ v, P v → v.IsSingle ∨ ∃ es, v = .nested es ∧ Object.AllFit es)

include hP

theorem Object.allFit_of_values {es : Object} (h : ∀ e ∈ es, P e.2) : es.AllFit := by
  refine Object.allFit_of_forall (fun e he => ?_) (fun e he inner heq => ?_)
    fun e he objects heq => ?_
  · rcases hP _ (h e he) with hsingle | ⟨es, heq, -⟩
    · exact hsingle.fits e.1
    · rw [heq]; trivial
  · have hvalue := heq ▸ h e he
    rcases hP _ hvalue with hsingle | ⟨es, hes, hfit⟩
    · exact hsingle.elim
    · rwa [Value.nested.inj hes]
  · have hvalue := heq ▸ h e he
    rcases hP _ hvalue with hsingle | ⟨es, hes, -⟩
    · exact hsingle.elim
    · cases hes

/-- The fallbacks of a style are objects of one entry, with the values that styles have. -/
theorem IsStyle.allFit {style : Object} (h : IsStyle P style) : style.AllFit := by
  have hvalue : ∀ e, P e.2 → Object.AllFit [e] := fun e he =>
    Object.allFit_of_values hP (List.forall_mem_singleton.2 he)
  intro key v hoccurs
  cases hoccurs with
  | here hmem =>
    rcases h.entry _ hmem with hv | ⟨hkey, objects, heq, hobjects⟩
    · exact hvalue (key, v) hv key v (.here List.mem_cons_self)
    · obtain rfl : v = .fallbacks objects := heq
      refine ⟨hkey, hobjects.1, fun object hobject => ?_⟩
      obtain ⟨name, w, rfl, -⟩ := hobjects.2 object hobject
      rfl
  | @nested _ inner above hmem hoccurs =>
    rcases h.entry _ hmem with hv | ⟨-, _, heq, -⟩
    · exact hvalue (above, .nested inner) hv key v (.nested List.mem_cons_self hoccurs)
    · cases heq
  | @fallbacks _ inner above objects hmem hinner hoccurs =>
    rcases h.entry _ hmem with hv | ⟨-, others, heq, hobjects⟩
    · exact hvalue (above, .fallbacks objects) hv key v
        (.fallbacks List.mem_cons_self hinner hoccurs)
    · obtain rfl := Value.fallbacks.inj heq
      obtain ⟨name, w, rfl, hw⟩ := hobjects.2 inner hinner
      exact hvalue (name, w) hw key v hoccurs

end

theorem IsStyle.allFit_of_isMember {object : Object} (h : IsStyle Value.IsMember object) :
    object.AllFit := by
  refine h.allFit fun v hv => ?_
  cases hv with
  | single hv => exact .inl hv
  | style hes => exact .inr ⟨_, rfl, hes.allFit fun w hw => .inl hw⟩

/-- Whatever stands in a style object may stand there. -/
theorem allFit_ofRules (o : Options) (rules : List Rule) : Object.AllFit (ofRules o rules) :=
  Object.allFit_of_values (P := fun v => ∃ object, v = .nested object ∧ IsStyle Value.IsMember object)
    (fun _ ⟨object, heq, h⟩ => .inr ⟨object, heq, h.allFit_of_isMember⟩)
    fun _ he => exists_of_mem_ofRules o rules he

/-- **Style objects have one shape.**  Under every key at the top of the style object of any rules there
is an object.  Nowhere in it is a list that is not one of fallbacks, a truth value or `null`, and a list
of fallbacks stands under `fallbacks` alone, is not empty, and has one entry in each of its objects. -/
theorem ofRules_shape (o : Options) (rules : List Rule) :
    (∀ e ∈ ofRules o rules, ∃ object, e.2 = .nested object) ∧
      ∀ (key : String) (v : Value), (ofRules o rules).Occurs key v → v.Fits key :=
  ⟨fun _ he => (exists_of_mem_ofRules o rules he).imp fun _ h => h.1, allFit_ofRules o rules⟩

/-- A property called `fallbacks`, and two more with earlier values in the object of a media group,
where one replaces the style of a rule inside. -/
theorem ofRules_shape_of_collision :
    Value.Fits "fallbacks" (.fallbacks [[("top", .scalar "0")],
      [("b", .nested [("color", .scalar "red")])]]) := by
  refine (ofRules_shape { dashes := true } [
    .group (.media "print") [.style ["b"] [.declaration ⟨"color", "red"⟩]],
    .style [".@media print"] [.declaration ⟨"fallbacks", "none"⟩, .declaration ⟨"b", "1"⟩,
      .declaration ⟨"top", "0"⟩, .declaration ⟨"top", "1"⟩]]).2 _ _ ?_
  have hstyles : ofRules { dashes := true } [
      .group (.media "print") [.style ["b"] [.declaration ⟨"color", "red"⟩]],
      .style [".@media print"] [.declaration ⟨"fallbacks", "none"⟩, .declaration ⟨"b", "1"⟩,
        .declaration ⟨"top", "0"⟩, .declaration ⟨"top", "1"⟩]] =
      [("@media print", .nested [("b", .scalar "1"), ("fallbacks", .fallbacks
        [[("top", .scalar "0")], [("b", .nested [("color", .scalar "red")])]]),
        ("top", .scalar "1")])] := by cbv
  rw [hstyles]
  exact .nested List.mem_cons_self (.here (by simp))

end Restyle.Style
