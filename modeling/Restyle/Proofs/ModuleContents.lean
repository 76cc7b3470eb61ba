import Restyle.Proofs.NormalValues
import Restyle.Proofs.Shape
import Restyle.Proofs.UniformRendering

/-!
# What a module holds

The literal between the opening and the ending of a module is the JSON of a style object, and reading it
gives the normal form of that object (`parseAny_literal`): style objects are nested only a few objects
deep, so the reader never refuses one.

In a normal form the values stand where they stood (`Object.Occurs.normalEntries`), and a number that is
finite is written as before.  So if all numbers are finite, the style sheet of what is read is the style
sheet of the style object (`render_normalEntries`).  A number that is too large for a double is infinite,
and JSON has no such numbers: it is `null` in the literal, and nothing else is.
-/

namespace Restyle.Style

open Css (Rule)

/-! ## The depth of style objects -/

section

variable {P : Value → Prop} {d : Nat} (hP : ∀ v, P v → v.Within d)

include hP

theorem IsStyle.within {style : Object} (h : IsStyle P style) : (Value.nested style).Within (d + 3) := by
  refine .nested h.nodup fun e he => ?_
  rcases h.entry e he with hv | ⟨-, objects, heq, -, hobjects⟩
  · exact (hP _ hv).mono (Nat.le_add_right d 2)
  · rw [heq]
    refine .fallbacks fun object hobject => ?_
    obtain ⟨name, v, rfl, hv⟩ := hobjects object hobject
    exact .nested (List.nodup_singleton _) (List.forall_mem_singleton.2 (hP v hv))

end

theorem Value.IsSingle.within {v : Value} (h : v.IsSingle) : v.Within 0 := by
  cases v with
  | scalar text => exact .scalar text
  | number n => exact .number n
  | _ => exact h.elim

theorem Value.IsMember.within {v : Value} (h : v.IsMember) : v.Within 3 := by
  cases h with
  | single h => exact h.within.mono (Nat.zero_le 3)
  | style h => exact h.within fun _ => Value.IsSingle.within

/-- Top, rule, fallbacks, fallback, rule inside, fallbacks and fallback there: no style object is nested
deeper. -/
theorem within_ofRules (o : Options) (rules : List Rule) :
    (Value.nested (ofRules o rules)).Within 7 := by
  refine .nested (nodup_keys_ofRules o rules) fun e he => ?_
  obtain ⟨object, heq, hobject⟩ := exists_of_mem_ofRules o rules he
  rw [heq]
  exact hobject.within fun _ => Value.IsMember.within

/-- The literal of a module is read, and what is read is the normal form of the style object. -/
theorem parseAny_literal (o : Options) (rules : List Rule) :
    Object.parseAny (ofRules o rules).toJson.pretty =
      .ok (Value.normalEntries (ofRules o rules)) := by
  have hread := (Value.parse_toJson ((within_ofRules o rules).mono (by decide))).2
  unfold Object.parseAny
  rw [show (ofRules o rules).toJson = (Value.nested (ofRules o rules)).toJson from rfl, hread]
  rfl

/-! ## What stands in a normal form -/

/-- Whether JSON keeps a value, what is in it aside. -/
def Value.IsKept : Value → Prop
  | .number n => n.isFinite = true
  | .list _ => False
  | _ => True

/-- JSON keeps all values that stand in an object. -/
def Object.AllKept (es : Object) : Prop :=
  ∀ (key : String) (v : Value), es.Occurs key v → v.IsKept

theorem Value.mem_normalEntries {es : Object} {key : String} {w : Value} :
    (key, w) ∈ normalEntries es ↔ ∃ v, (key, v) ∈ es ∧ v.normal = w := by
  rw [normalEntries_eq_map]
  constructor
  · intro h
    obtain ⟨⟨name, v⟩, hv, heq⟩ := List.mem_map.1 h
    obtain ⟨rfl, hw⟩ := Prod.mk.inj heq
    exact ⟨v, hv, hw⟩
  · rintro ⟨v, hv, rfl⟩
    exact List.mem_map.2 ⟨(key, v), hv, rfl⟩

theorem Value.exists_of_normal_eq_nested {v : Value} {es : Object} (h : v.normal = .nested es) :
    ∃ es', v = .nested es' ∧ normalEntries es' = es := by
  have hsome := isSome_nested?_normal v
  rw [h] at hsome
  cases v with
  | nested es' => exact ⟨es', rfl, Value.nested.inj h⟩
  | _ => cases hsome

theorem Value.exists_of_normal_eq_fallbacks {v : Value} (hlist : ∀ items, v ≠ .list items)
    {objects : List Object} (h : v.normal = .fallbacks objects) :
    ∃ objects', v = .fallbacks objects' ∧ objects'.map normalEntries = objects := by
  cases v with
  | fallbacks objects' => exact ⟨objects', rfl, (normalObjects_eq_map _).symm.trans (fallbacks.inj h)⟩
  | list items => exact absurd rfl (hlist items)
  | number n => rw [normal] at h; split at h <;> cases h
  | _ => cases h

/-- Numbers that are not finite become `null`, and nothing else does. -/
theorem Value.normal_eq_null_iff {v : Value} :
    v.normal = .null ↔ v = .null ∨ ∃ n, v = .number n ∧ n.isFinite = false := by
  cases v with
  | number n => cases hfinite : n.isFinite <;> simp [normal, hfinite]
  | list items =>
    have hgathered : gathered (normalItems items) ≠ .null := by
      rcases gathered_cases (normalItems items) with ⟨objects, -, heq⟩ | ⟨-, heq⟩ <;> simp [heq]
    simp [normal, hgathered]
  | _ => simp [normal]

/-- What stands in an object stands in its normal form, in its own normal form. -/
theorem Object.Occurs.normalEntries {es : Object} {key : String} {v : Value} (h : es.Occurs key v) :
    Object.Occurs key v.normal (Value.normalEntries es) := by
  induction h with
  | here h => exact .here (Value.mem_normalEntries.2 ⟨_, h, rfl⟩)
  | nested habove _ ih => exact .nested (Value.mem_normalEntries.2 ⟨_, habove, rfl⟩) ih
  | fallbacks habove hinner _ ih =>
    refine .fallbacks (Value.mem_normalEntries.2 ⟨_, habove, rfl⟩) ?_ ih
    rw [Value.normalObjects_eq_map]
    exact List.mem_map_of_mem hinner

/-- Where there are no other lists than fallbacks, nothing else stands in the normal form. -/
theorem Object.Occurs.of_normalEntries {es : Object} (hlist : ∀ key items, ¬ es.Occurs key (.list items))
    {key : String} {w : Value} (h : Object.Occurs key w (Value.normalEntries es)) :
    ∃ v, es.Occurs key v ∧ v.normal = w := by
  generalize hnormal : Value.normalEntries es = normal at h
  induction h generalizing es with
  | here h =>
    obtain ⟨v, hv, hw⟩ := Value.mem_normalEntries.1 (hnormal ▸ h)
    exact ⟨v, .here hv, hw⟩
  | nested habove _ ih =>
    obtain ⟨v, hv, hw⟩ := Value.mem_normalEntries.1 (hnormal ▸ habove)
    obtain ⟨es', rfl, hinner⟩ := Value.exists_of_normal_eq_nested hw
    obtain ⟨u, hu, huw⟩ := ih (fun key items hoccurs => hlist key items (.nested hv hoccurs)) hinner
    exact ⟨u, .nested hv hu, huw⟩
  | fallbacks habove hinner _ ih =>
    obtain ⟨v, hv, hw⟩ := Value.mem_normalEntries.1 (hnormal ▸ habove)
    have hv_list : ∀ items, v ≠ .list items := by
      rintro items rfl
      exact hlist _ items (.here hv)
    obtain ⟨objects', rfl, rfl⟩ := Value.exists_of_normal_eq_fallbacks hv_list hw
    obtain ⟨es', hes', hinner⟩ := List.mem_map.1 hinner
    obtain ⟨u, hu, huw⟩ := ih (fun key items hoccurs =>
      hlist key items (.fallbacks hv hes' hoccurs)) hinner
    exact ⟨u, .fallbacks hv hes' hu, huw⟩

/-! ## The style sheet of a normal form -/

theorem Value.numberText_unsignedZero (n : Double) : numberText n.unsignedZero = numberText n := by
  cases n with
  | finite negative code =>
    by_cases hzero : code.val = 0
    · rw [Double.unsignedZero, numberText, numberText, if_pos hzero, if_pos hzero]
    · have hsign : (negative && code.val != 0) = negative := by
        rw [bne_iff_ne.2 hzero, Bool.and_true]
      rw [Double.unsignedZero, hsign]
  | _ => rfl

mutual

/-- An object of which JSON keeps everything has the style sheet of its normal form. -/
theorem render_normalEntries : ∀ es : List (String × Value), Object.AllKept es →
    render (Value.normalEntries es) = render es
  | [], _ => rfl
  | (key, v) :: rest, h => by
    have hvalue : Object.AllKept [(key, v)] := fun _ _ hoccurs =>
      h _ _ (hoccurs.mono (List.cons_subset_cons _ (List.nil_subset _)))
    have hrest : Object.AllKept rest := fun _ _ hoccurs =>
      h _ _ (hoccurs.mono (List.subset_cons_self _ _))
    rw [Value.normalEntries, render_cons, render_cons, renderEntry_normal key v hvalue,
      render_normalEntries rest hrest]

theorem renderEntry_normal (key : String) : ∀ v : Value, Object.AllKept [(key, v)] →
    renderEntry key v.normal = renderEntry key v
  | .nested es, h => by
    have hes : Object.AllKept es := fun _ _ hoccurs => h _ _ (.nested List.mem_cons_self hoccurs)
    rw [Value.normal, renderEntry_block rfl, renderEntry_block rfl, render_normalEntries es hes]
  | .fallbacks objects, h => by
    have hobjects : ∀ es ∈ objects, Object.AllKept es := fun es hes _ _ hoccurs =>
      h _ _ (.fallbacks List.mem_cons_self hes hoccurs)
    rw [Value.normal, renderEntry_block rfl, renderEntry_block rfl,
      render_normalObjects 0 objects hobjects]
  | .number n, h => by
    have hfinite : n.isFinite = true := h _ _ (.here List.mem_cons_self)
    rw [Value.normal, if_pos hfinite, renderEntry_line rfl, renderEntry_line rfl, Value.lineText,
      Value.lineText, Value.written?, Value.numberText_unsignedZero]
    rfl
  | .list _, h => (h _ _ (.here List.mem_cons_self)).elim
  | .scalar _, _ => rfl
  | .boolean _, _ => rfl
  | .null, _ => rfl

theorem render_normalObjects (i : Nat) : ∀ objects : List (List (String × Value)),
    (∀ es ∈ objects, Object.AllKept es) →
      render (Entries.indexed .nested i (Value.normalObjects objects)) =
        render (Entries.indexed .nested i objects)
  | [], _ => rfl
  | es :: rest, h => by
    obtain ⟨hes, hrest⟩ := List.forall_mem_cons.1 h
    rw [Value.normalObjects, Entries.indexed, Entries.indexed, render_cons, render_cons,
      renderEntry_block rfl, renderEntry_block rfl, render_normalEntries es hes,
      render_normalObjects (i + 1) rest hrest]

end

/-! ## Style objects -/

section

variable (o : Options) (rules : List Rule)

theorem not_occurs_list_ofRules (key : String) (items : List Value) :
    ¬ (ofRules o rules).Occurs key (.list items) :=
  fun h => allFit_ofRules o rules key _ h

/-- JSON keeps all of a style object in which the numbers are finite. -/
theorem allKept_ofRules (hfinite : ∀ key n, (ofRules o rules).Occurs key (.number n) → n.isFinite = true) :
    Object.AllKept (ofRules o rules) := by
  intro key v hoccurs
  cases v with
  | number n => exact hfinite key n hoccurs
  | list items => exact not_occurs_list_ofRules o rules key items hoccurs
  | _ => trivial

/-- Style objects have no `null`, so what is `null` in the normal form was a number. -/
theorem occurs_null_iff (key : String) :
    Object.Occurs key .null (Value.normalEntries (ofRules o rules)) ↔
      ∃ n, (ofRules o rules).Occurs key (.number n) ∧ n.isFinite = false := by
  constructor
  · intro hnull
    obtain ⟨v, hoccurs, hnormal⟩ := hnull.of_normalEntries (not_occurs_list_ofRules o rules)
    rcases Value.normal_eq_null_iff.1 hnormal with rfl | ⟨n, rfl, hfinite⟩
    · exact (allFit_ofRules o rules key _ hoccurs).elim
    · exact ⟨n, hoccurs, hfinite⟩
  · rintro ⟨n, hoccurs, hfinite⟩
    have hnormal := hoccurs.normalEntries
    rwa [Value.normal_eq_null_iff.2 (.inr ⟨n, rfl, hfinite⟩)] at hnormal

end

/-! ## Modules -/

theorem moduleText_ne_empty (styles : Object) : moduleText styles ≠ "" := by
  rw [moduleText, ne_eq, String.append_eq_empty_iff]
  exact fun h => absurd h.2 (by decide)

/-- A module that is not empty is that of the style object of its style sheet. -/
theorem exists_of_moduleOfCss {css : String} {o : Options} {module : String}
    (h : Convert.moduleOfCss css o = .ok module) (hmodule : module ≠ "") :
    ∃ sheet, Css.Stylesheet.parse css o.read = .ok sheet ∧
      module = moduleText (ofRules o sheet.rules) := by
  unfold Convert.moduleOfCss at h
  cases hsheet : Css.Stylesheet.parse css o.read with
  | error problem => rw [hsheet] at h; cases h
  | ok sheet =>
    rw [hsheet] at h
    replace h := Except.ok.inj h
    dsimp only at h
    refine ⟨sheet, rfl, ?_⟩
    split at h
    · exact absurd h.symm hmodule
    · exact h.symm

/-- **A module carries the whole style object.**  The literal of a module is read as the normal form of
the style object of its style sheet.  If all numbers in that are finite, the style sheet of the literal
is the one of the style object; and a value is `null` in what is read exactly if it was a number that is
not finite. -/
theorem module_carries_styles {css : String} {o : Options} {module : String}
    (h : Convert.moduleOfCss css o = .ok module) (hmodule : module ≠ "") :
    ∃ (sheet : Css.Stylesheet) (literal : String),
      Css.Stylesheet.parse css o.read = .ok sheet ∧
      module = moduleOpening ++ literal ++ moduleEnding ∧
      Object.parseAny literal = .ok (Value.normalEntries (ofRules o sheet.rules)) ∧
      ((∀ key n, (ofRules o sheet.rules).Occurs key (.number n) → n.isFinite = true) →
        Convert.cssOfJson literal = .ok (toCss (ofRules o sheet.rules))) ∧
      ∀ key, Object.Occurs key .null (Value.normalEntries (ofRules o sheet.rules)) ↔
        ∃ n, (ofRules o sheet.rules).Occurs key (.number n) ∧ n.isFinite = false := by
  obtain ⟨sheet, hsheet, rfl⟩ := exists_of_moduleOfCss h hmodule
  have hread := parseAny_literal o sheet.rules
  refine ⟨sheet, (ofRules o sheet.rules).toJson.pretty, hsheet, rfl, hread, fun hfinite => ?_,
    occurs_null_iff o sheet.rules⟩
  have hkept := allKept_ofRules o sheet.rules hfinite
  rw [Convert.cssOfJson, hread, Except.map, toCss_eq_render, toCss_eq_render,
    render_normalEntries _ hkept]

/-- A property with a fallback, and a negative zero, which is written without its sign. -/
theorem module_carries_styles_of_fallback : ∃ literal : String,
    Convert.moduleOfCss ".a\x7btop:1em;top:-0px\x7d" { unit := some "px" } =
        .ok (moduleOpening ++ literal ++ moduleEnding) ∧
      Convert.cssOfJson literal =
        .ok "\n.a \x7b\n  top:0px;\n\n.fallbacks \x7b\n  \n.0 \x7b\n  top:1em;\n\x7d\x7d\x7d" := by
  have hsheet : Css.Stylesheet.parse ".a\x7btop:1em;top:-0px\x7d" {} =
      .ok ⟨[.style [".a"] [.declaration ⟨"top", "1em"⟩, .declaration ⟨"top", "-0px"⟩]], []⟩ := by
    decide +kernel
  have hstyles : ofRules { unit := some "px" }
      [.style [".a"] [.declaration ⟨"top", "1em"⟩, .declaration ⟨"top", "-0px"⟩]] =
        [("a", .nested [("top", .number (.finite true ⟨0, by decide⟩)),
          ("fallbacks", .fallbacks [[("top", .scalar "1em")]])])] := by with_unfolding_all rfl
  have hmodule : Convert.moduleOfCss ".a\x7btop:1em;top:-0px\x7d" { unit := some "px" } =
      .ok (moduleText (ofRules { unit := some "px" }
        [.style [".a"] [.declaration ⟨"top", "1em"⟩, .declaration ⟨"top", "-0px"⟩]])) :=
    congrArg (Except.map _) hsheet
  obtain ⟨sheet, literal, hparse, hliteral, -, hcss, -⟩ :=
    module_carries_styles hmodule (moduleText_ne_empty _)
  obtain rfl := Except.ok.inj (hsheet.symm.trans hparse)
  refine ⟨literal, hmodule.trans (congrArg Except.ok hliteral), ?_⟩
  rw [hcss, hstyles]
  · exact congrArg Except.ok (by with_unfolding_all rfl)
  · rw [hstyles]
    intro key n hoccurs
    have hnumber : "top" = key ∧ Double.finite true ⟨0, by decide⟩ = n := by
      simpa [Object.occurs_cons] using hoccurs
    rw [← hnumber.2]
    rfl

/-- A width that is too large for a double is infinite, and `null` in the literal. -/
theorem infinite_width_becomes_null : ∃ (sheet : Css.Stylesheet) (literal : String),
    Css.Stylesheet.parse ".a\x7bwidth:1e999px\x7d" {} = .ok sheet ∧
      Convert.moduleOfCss ".a\x7bwidth:1e999px\x7d" { unit := some "px" } =
        .ok (moduleOpening ++ literal ++ moduleEnding) ∧
      Convert.cssOfJson literal = .ok "\n.a \x7b\n  width:null;\n\x7d" ∧
      toCss (ofRules { unit := some "px" } sheet.rules) = "\n.a \x7b\n  width:Infinitypx;\n\x7d" ∧
      Convert.cssOfJson literal ≠ .ok (toCss (ofRules { unit := some "px" } sheet.rules)) := by
  have hsheet : Css.Stylesheet.parse ".a\x7bwidth:1e999px\x7d" {} =
      .ok ⟨[.style [".a"] [.declaration ⟨"width", "1e999px"⟩]], []⟩ := by decide +kernel
  have hnumber : leadingNumber? "1e999px" = some (.infinite false) := by decide +kernel
  have hparts : hasSeveralParts "1e999px" = false := by decide
  have hvalue : declaredValue { unit := some "px" } ⟨"width", "1e999px"⟩ = .number (.infinite false) := by
    have hunit : Options.effectiveUnit { unit := some "px" } = some "px" := rfl
    rw [declaredValue, hunit, withoutUnit, hparts, hnumber]
    rfl
  have hstyles : ofRules { unit := some "px" } [.style [".a"] [.declaration ⟨"width", "1e999px"⟩]] =
      [("a", .nested [("width", .number (.infinite false))])] := by
    have hadd : addDeclaration { unit := some "px" } [] ⟨"width", "1e999px"⟩ =
        [("width", .number (.infinite false))] := by
      rw [addDeclaration, hvalue]
      with_unfolding_all rfl
    exact congrArg (fun style => [("a", Value.nested style)]) hadd
  have hread : Convert.cssOfJson (ofRules { unit := some "px" }
      [.style [".a"] [.declaration ⟨"width", "1e999px"⟩]]).toJson.pretty =
        .ok "\n.a \x7b\n  width:null;\n\x7d" := by
    rw [Convert.cssOfJson, parseAny_literal, hstyles, Except.map]
    exact congrArg Except.ok (by decide +kernel)
  have hdirect : toCss (ofRules { unit := some "px" }
      [.style [".a"] [.declaration ⟨"width", "1e999px"⟩]]) =
        "\n.a \x7b\n  width:Infinitypx;\n\x7d" := by
    rw [hstyles]
    decide +kernel
  refine ⟨_, _, hsheet, congrArg (Except.map _) hsheet, hread, hdirect, ?_⟩
  rw [hread, hdirect]
  decide

end Restyle.Style
