import Restyle.Proofs.Shape

/-!
# One row of declarations in a rule, a frame and a font face

The declarations of a style rule, of a keyframe and of a font face are added to their objects by
three different steps.  Fallbacks aside, each of them gives the name of the declaration one value,
in its place if the name is there and behind all others if it is not: a frame takes the value
without its unit, a style rule takes the same with its backslashes doubled (`declaredValue_eq`), and
a font face takes what a frame takes where there is no unit (`addFontFace_eq`).

Giving a value to a name commutes with a change of all values (`Entries.mapValues_insert`), and the
entry of the fallbacks is out of the way of every other name, so the objects of whole rows differ in
the same way (`without_styleOf`).
-/

namespace Restyle.Entries

variable {α β : Type}

/-- Changes every value where it stands. -/
def mapValues (f : α → β) (es : Entries α) : Entries β :=
  es.map fun e => (e.1, f e.2)

theorem mapValues_insert (f : α → β) (es : Entries α) (key : String) (value : α) :
    (es.insert key value).mapValues f = (es.mapValues f).insert key (f value) := by
  induction es with
  | nil => rfl
  | cons e es ih =>
    obtain ⟨k, v⟩ := e
    simp only [mapValues] at ih
    by_cases h : k = key
    · simp [mapValues, insert, h]
    · simp [mapValues, insert, h, ih]

end Restyle.Entries

namespace Restyle.Style

open Css (Rule Declaration DeclarationEntry Frame)

/-- A value as it stands in a string literal: the backslashes of a text are doubled. -/
def Value.doubled : Value → Value
  | .scalar text => .scalar (doubleBackslashes text)
  | value => value

/-! ## The objects of a row of declarations -/

/-- The object of a style rule. -/
def styleOf (o : Options) (nodes : List DeclarationEntry) : Object :=
  (declarationsOf nodes).foldl (addDeclaration o) []

/-- The object of a keyframe. -/
def frameOf (o : Options) (nodes : List DeclarationEntry) : Object :=
  (declarationsOf nodes).foldl (addFrameDeclaration o) []

/-- The object of a font face. -/
def fontFaceOf (o : Options) (nodes : List DeclarationEntry) : Object :=
  (declarationsOf nodes).foldl (addFontFace o) []

/-- An edit of a key that has no entry starts from an empty object. -/
theorem get?_modifyObject_of_get?_none {styles : Object} {key : String}
    (h : styles.get? key = none) (edit : Object → Object) :
    (modifyObject styles key edit).get? key = some (.nested (edit [])) := by
  rw [get?_modifyObject_self, objectAt_of_get?_none h]

/-! ## One declaration -/

theorem declaredValue_eq (o : Options) (d : Declaration) :
    declaredValue o d = (withoutUnit d.value o.effectiveUnit).doubled := by
  rw [declaredValue]
  cases withoutUnit d.value o.effectiveUnit <;> rfl

/-- Where there is no unit, a frame takes every value as it is written, and so does a font face. -/
theorem addFontFace_eq (o : Options) (block : Object) (d : Declaration) :
    addFontFace o block d = addFrameDeclaration { o with unit := none } block d := rfl

/-- The value that a name had goes to the fallbacks and nowhere else. -/
theorem without_give (style : Object) {name : String} (h : name ≠ Object.fallbackKey) (v : Value) :
    (give style (name, v)).without Object.fallbackKey =
      (style.without Object.fallbackKey).insert name v := by
  unfold give
  rw [Entries.without_insert_of_ne _ h]
  cases style.get? name with
  | none => rfl
  | some previous =>
    dsimp only
    rw [addFallback_eq_insert, Entries.without_insert_self]

/-- A declaration of a style rule does to its names and values what it does in a frame. -/
theorem without_addDeclaration {o : Options} {style block : Object} {d : Declaration}
    (hname : propertyKey d.property o.dashes ≠ Object.fallbackKey)
    (h : style.without Object.fallbackKey = block.mapValues Value.doubled) :
    (addDeclaration o style d).without Object.fallbackKey =
      (addFrameDeclaration o block d).mapValues Value.doubled := by
  rw [addDeclaration_eq_give, namedValue, without_give _ hname, h, declaredValue_eq,
    addFrameDeclaration, Entries.mapValues_insert]

/-! ## A row of them -/

theorem without_foldl_addDeclaration {o : Options} {style block : Object} {ds : List Declaration}
    (hname : ∀ d ∈ ds, propertyKey d.property o.dashes ≠ Object.fallbackKey)
    (h : style.without Object.fallbackKey = block.mapValues Value.doubled) :
    (ds.foldl (addDeclaration o) style).without Object.fallbackKey =
      (ds.foldl (addFrameDeclaration o) block).mapValues Value.doubled := by
  induction ds generalizing style block with
  | nil => exact h
  | cons d ds ih =>
    rw [List.foldl_cons, List.foldl_cons]
    apply ih
    · intro d' hd'
      exact hname d' (List.mem_cons_of_mem _ hd')
    · exact without_addDeclaration (hname d List.mem_cons_self) h

theorem without_styleOf {o : Options} {nodes : List DeclarationEntry}
    (hname : ∀ d ∈ declarationsOf nodes, propertyKey d.property o.dashes ≠ Object.fallbackKey) :
    (styleOf o nodes).without Object.fallbackKey = (frameOf o nodes).mapValues Value.doubled :=
  without_foldl_addDeclaration hname rfl

theorem fontFaceOf_eq (o : Options) (nodes : List DeclarationEntry) :
    fontFaceOf o nodes = frameOf { o with unit := none } nodes :=
  List.foldl_ext _ _ _ fun block d _ => addFontFace_eq o block d

/-- The values of a frame are single texts and numbers. -/
theorem isSingle_of_mem_frameOf {o : Options} {nodes : List DeclarationEntry}
    {e : String × Value} (he : e ∈ frameOf o nodes) : e.2.IsSingle := by
  have step : ∀ (block : Object) (d : Declaration), (∀ e ∈ block, e.2.IsSingle) →
      ∀ e ∈ addFrameDeclaration o block d, e.2.IsSingle := by
    intro block d hblock e he
    rcases Entries.mem_of_mem_insert he with rfl | he
    · exact isSingle_withoutUnit _ _
    · exact hblock e he
  have run : ∀ e ∈ frameOf o nodes, e.2.IsSingle :=
    List.foldlRecOn (motive := fun block : Object => ∀ e ∈ block, e.2.IsSingle)
      (declarationsOf nodes) (addFrameDeclaration o) (fun _ h => nomatch h)
      fun block hblock d _ => step block d hblock
  exact run e he

/-- **The three walkers agree.**  Where there is no entry under its key yet, a row of declarations
makes one object as a style rule, one as a keyframe and one as a font face.  If no property is
called like the fallbacks, the object of the rule without them is that of the frame with the
backslashes of its texts doubled, entry by entry and in the same order; the values of a frame are
single texts and numbers, so there are no other texts in it.  The object of the font face is always
that of a frame with no unit. -/
theorem walkers_agree (o : Options) (nodes : List DeclarationEntry)
    (hname : ∀ d ∈ declarationsOf nodes, propertyKey d.property o.dashes ≠ Object.fallbackKey) :
    (∀ (styles : Object) (selectors : List String), styles.get? (selectorKey selectors) = none →
      (addStyle o styles selectors nodes).get? (selectorKey selectors) =
        some (.nested (styleOf o nodes))) ∧
    (∀ (unit : Option String) (block : Object) (frame : Frame), frame.declarations = nodes →
      block.get? (frameKey frame) = none →
      (addFrame { o with unit } block frame).get? (frameKey frame) =
        some (.nested (frameOf { o with unit } nodes))) ∧
    (∀ styles : Object, styles.get? "@font-face" = none →
      (addTopRule o styles (.fontFace nodes)).get? "@font-face" =
        some (.nested (fontFaceOf o nodes))) ∧
    (styleOf o nodes).without Object.fallbackKey = (frameOf o nodes).mapValues Value.doubled ∧
    (∀ e ∈ frameOf o nodes, e.2.IsSingle) ∧
    fontFaceOf o nodes = frameOf { o with unit := none } nodes := by
  refine ⟨?_, ?_, ?_, without_styleOf hname, fun e he => isSingle_of_mem_frameOf he,
    fontFaceOf_eq o nodes⟩
  · intro styles selectors hnone
    exact get?_modifyObject_of_get?_none hnone _
  · rintro unit block frame rfl hnone
    exact get?_modifyObject_of_get?_none hnone _
  · intro styles hnone
    rw [addTopRule]
    exact get?_modifyObject_of_get?_none hnone _

/-- A length, a text and a comment, with the length and the text given again. -/
theorem walkers_agree_of_repeated :
    (styleOf { unit := some "px", dashes := true }
        [.declaration ⟨"top", "1px"⟩, .declaration ⟨"content", "\\9"⟩, .comment "again",
          .declaration ⟨"top", "2px"⟩, .declaration ⟨"content", "a\\"⟩]).without
            Object.fallbackKey =
      (frameOf { unit := some "px", dashes := true }
        [.declaration ⟨"top", "1px"⟩, .declaration ⟨"content", "\\9"⟩, .comment "again",
          .declaration ⟨"top", "2px"⟩, .declaration ⟨"content", "a\\"⟩]).mapValues
            Value.doubled :=
  (walkers_agree { unit := some "px", dashes := true } _ (by decide +kernel)).2.2.2.1

end Restyle.Style
