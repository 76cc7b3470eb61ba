import Restyle.Proofs.RuleKeys

/-!
# Font faces

All font faces at the top of a style sheet add to the object under `@font-face`.  A declaration of a
font face takes the place of what its name had before, also where another font face gave it, and the
earlier value is gone: there are no fallbacks of font faces.  A style rule whose key is `@font-face` adds
to the same object, and there an earlier value becomes a fallback, whoever gave it.

So a value is kept unless the next one of its name is given by a font face (`fontFace_holds_iff`).
`Assignment.apply` says what one declaration does to the object, and `Records` what is in the object
after a row of them.
-/

namespace Restyle.Style

open Css (Rule Declaration DeclarationEntry)

/-! ## Assignments -/

/-- A value that is given to a name. -/
structure Assignment where
  name : String
  value : Value
  /-- Whether the value that the name had becomes a fallback. -/
  keeps : Bool

def Assignment.apply (object : Object) (a : Assignment) : Object :=
  if a.keeps then give object (a.name, a.value) else object.insert a.name a.value

/-- What the declarations of a style rule or a font face give to names. -/
def assignmentsOf (o : Options) : Rule → List Assignment
  | .style _ nodes =>
    (declarationsOf nodes).map fun d => ⟨propertyKey d.property o.dashes, declaredValue o d, true⟩
  | .fontFace nodes =>
    (declarationsOf nodes).map fun d => ⟨propertyKey d.property o.dashes, .scalar d.value, false⟩
  | _ => []

/-- What is given to names in the object of font faces, in order. -/
def faceAssignments (o : Options) (rules : List Rule) : List Assignment :=
  (rules.filter (addsTo "@font-face")).flatMap (assignmentsOf o)

/-- An object holds a value under a name or among the fallbacks of the name. -/
def Object.Holds (object : Object) (name : String) (v : Value) : Prop :=
  object.get? name = some v ∨ [(name, v)] ∈ fallbacksIn object

/-! ## One assignment -/

section

variable (object : Object) {a : Assignment} (ha : a.name ≠ Object.fallbackKey) {name : String}

theorem get?_apply (hname : name ≠ Object.fallbackKey) :
    (a.apply object).get? name = if a.name = name then some a.value else object.get? name := by
  have hfallback : ∀ fallback, (addFallback object fallback).get? name = object.get? name :=
    fun _ => Entries.get?_insert_of_ne _ _ hname
  unfold Assignment.apply give
  by_cases h : a.name = name
  · rw [if_pos h, h]
    split <;> exact Entries.get?_insert_self _ _ _
  · rw [if_neg h]
    split
    · rw [Entries.get?_insert_of_ne _ _ (Ne.symm h)]
      split
      · exact hfallback _
      · rfl
    · exact Entries.get?_insert_of_ne _ _ (Ne.symm h)

include ha

/-- The fallbacks stay, and one more comes in front of them if the assignment keeps what its name had. -/
theorem mem_fallbacksIn_apply (v : Value) : [(name, v)] ∈ fallbacksIn (a.apply object) ↔
    (a.keeps = true ∧ a.name = name ∧ object.get? name = some v) ∨ [(name, v)] ∈ fallbacksIn object := by
  unfold Assignment.apply give
  cases hkeeps : a.keeps with
  | false => simp [fallbacksIn_insert_of_ne _ ha]
  | true =>
    rw [if_pos rfl, fallbacksIn_insert_of_ne _ ha]
    dsimp only
    cases hget : object.get? a.name with
    | none =>
      have hnone : ¬ (a.name = name ∧ object.get? name = some v) := by
        rintro ⟨rfl, h⟩
        cases hget.symm.trans h
      simp [hnone]
    | some previous =>
      rw [fallbacksIn_addFallback, List.mem_cons]
      have hnew : [(name, v)] = [(a.name, previous)] ↔ a.name = name ∧ object.get? name = some v := by
        constructor
        · intro h
          cases h
          exact ⟨rfl, hget⟩
        · rintro ⟨rfl, h⟩
          cases hget.symm.trans h
          rfl
      simp [hnew]

end

/-! ## Rows of assignments -/

/-- The assignments to one name. -/
def assignmentsTo (name : String) (row : List Assignment) : List Assignment :=
  row.filter (·.name == name)

theorem assignmentsTo_concat (name : String) (row : List Assignment) (a : Assignment) :
    assignmentsTo name (row ++ [a]) =
      if a.name = name then assignmentsTo name row ++ [a] else assignmentsTo name row := by
  by_cases hname : a.name = name <;> simp [assignmentsTo, hname]

/-- What is in an object once a row of assignments has been made: the last value of each name, and as
fallbacks the values that the next assignment of their name keeps. -/
structure Records (object : Object) (row : List Assignment) : Prop where
  get?_eq : ∀ name, name ≠ Object.fallbackKey →
    object.get? name = (assignmentsTo name row).getLast?.map Assignment.value
  mem_fallbacksIn : ∀ name v, [(name, v)] ∈ fallbacksIn object ↔ ∃ before a next after,
    assignmentsTo name row = before ++ a :: next :: after ∧ a.value = v ∧ next.keeps = true

namespace Records

theorem nil : Records [] [] where
  get?_eq _ _ := rfl
  mem_fallbacksIn name v := by simp [fallbacksIn, assignmentsTo]

variable {object : Object} {row : List Assignment}

/-- One assignment more. -/
theorem apply (h : Records object row) {a : Assignment} (ha : a.name ≠ Object.fallbackKey) :
    Records (a.apply object) (row ++ [a]) := by
  refine ⟨fun name hname => ?_, fun name v => ?_⟩
  · rw [get?_apply object hname, assignmentsTo_concat]
    split
    · rw [List.getLast?_concat]
      rfl
    · exact h.get?_eq name hname
  · rw [mem_fallbacksIn_apply object ha, h.mem_fallbacksIn, assignmentsTo_concat]
    by_cases hname : a.name = name
    · subst hname
      rw [if_pos rfl, h.get?_eq _ ha]
      constructor
      · rintro (⟨hkeeps, -, hlast⟩ | ⟨before, b, next, after, heq, hv, hkeeps⟩)
        · obtain ⟨b, hb, hv⟩ := Option.map_eq_some_iff.1 hlast
          obtain ⟨before, heq⟩ := List.getLast?_eq_some_iff.1 hb
          exact ⟨before, b, a, [], by rw [heq, List.append_assoc]; rfl, hv, hkeeps⟩
        · exact ⟨before, b, next, after ++ [a], by rw [heq, List.append_assoc]; rfl, hv, hkeeps⟩
      · rintro ⟨before, b, next, after, heq, hv, hkeeps⟩
        -- the last one of the row is the next one of `b`, or stands behind it
        rcases List.eq_nil_or_concat after with rfl | ⟨after, c, rfl⟩
        · have hsplit : assignmentsTo a.name row ++ [a] = (before ++ [b]) ++ [next] := by
            simpa using heq
          obtain ⟨hbefore, hnext⟩ := List.append_inj' hsplit rfl
          obtain rfl := List.singleton_inj.1 hnext
          refine .inl ⟨hkeeps, rfl, ?_⟩
          rw [hbefore, List.getLast?_concat, Option.map_some, hv]
        · have hsplit : assignmentsTo a.name row ++ [a] = (before ++ b :: next :: after) ++ [c] := by
            simpa using heq
          obtain ⟨hbefore, -⟩ := List.append_inj' hsplit rfl
          exact .inr ⟨before, b, next, after, hbefore, hv, hkeeps⟩
    · simp [hname]

/-- A row of assignments, by induction on the row from its end. -/
theorem foldl_apply (hnames : ∀ a ∈ row, a.name ≠ Object.fallbackKey) :
    Records (row.foldl Assignment.apply []) row := by
  induction row using List.reverseRecOn with
  | nil => exact nil
  | append_singleton row a ih =>
    obtain ⟨hrow, ha⟩ := List.forall_mem_append.1 hnames
    rw [List.foldl_concat]
    exact (ih hrow).apply (ha a List.mem_cons_self)

/-- A value is held if the next assignment of its name, if there is one, keeps it. -/
theorem holds_iff (h : Records object row) {name : String} (hname : name ≠ Object.fallbackKey)
    (v : Value) : object.Holds name v ↔ ∃ before a after,
      assignmentsTo name row = before ++ a :: after ∧ a.value = v ∧
        ∀ next ∈ after.head?, next.keeps = true := by
  rw [Object.Holds, h.get?_eq name hname, h.mem_fallbacksIn]
  constructor
  · rintro (hlast | ⟨before, a, next, after, heq, hv, hkeeps⟩)
    · obtain ⟨a, ha, hv⟩ := Option.map_eq_some_iff.1 hlast
      obtain ⟨before, heq⟩ := List.getLast?_eq_some_iff.1 ha
      exact ⟨before, a, [], heq, hv, nofun⟩
    · exact ⟨before, a, next :: after, heq, hv, fun b hb => Option.some.inj hb ▸ hkeeps⟩
  · rintro ⟨before, a, after, heq, hv, hkeeps⟩
    cases after with
    | nil => exact .inl (by rw [heq, List.getLast?_concat, Option.map_some, hv])
    | cons next after => exact .inr ⟨before, a, next, after, heq, hv, hkeeps next rfl⟩

/-- Where no assignment keeps anything, the last value is the only one. -/
theorem holds_iff_getLast? (h : Records object row) {name : String} (hname : name ≠ Object.fallbackKey)
    (hkeeps : ∀ a ∈ assignmentsTo name row, a.keeps = false) (v : Value) :
    object.Holds name v ↔ (assignmentsTo name row).getLast?.map Assignment.value = some v := by
  rw [Object.Holds, h.get?_eq name hname, h.mem_fallbacksIn]
  refine or_iff_left ?_
  rintro ⟨before, a, next, after, heq, -, hnext⟩
  have hfalse := hkeeps next (by rw [heq]; simp)
  rw [hnext] at hfalse
  cases hfalse

end Records

/-! ## The object of font faces -/

/-- A rule that adds to the object of font faces makes its assignments one by one. -/
theorem editBy_eq_foldl_apply (o : Options) (object : Object) {rule : Rule}
    (h : addsTo "@font-face" rule = true) :
    editBy o object rule = (assignmentsOf o rule).foldl Assignment.apply object := by
  have hkey := beq_iff_eq.1 h
  cases rule with
  | style selectors nodes => rw [assignmentsOf, List.foldl_map]; rfl
  | fontFace nodes => rw [assignmentsOf, List.foldl_map]; rfl
  | group head rules =>
    cases head with
    | media query => simpa using congrArg String.toList (Option.some.inj hkey)
    | _ => cases hkey
  | keyframes name vendor nodes => simpa using congrArg String.toList (Option.some.inj hkey)
  | _ => cases hkey

theorem foldl_editBy_eq_foldl_apply (o : Options) {rules : List Rule}
    (h : ∀ rule ∈ rules, addsTo "@font-face" rule = true) (object : Object) :
    rules.foldl (editBy o) object = (rules.flatMap (assignmentsOf o)).foldl Assignment.apply object := by
  rw [List.foldl_flatMap]
  exact List.foldl_ext _ _ _ fun object rule hrule => editBy_eq_foldl_apply o object (h rule hrule)

/-- Font faces keep nothing. -/
theorem keeps_of_mem_faceAssignments {o : Options} {rules : List Rule}
    (hstyle : ∀ selectors nodes, .style selectors nodes ∈ rules → selectorKey selectors ≠ "@font-face")
    {a : Assignment} (ha : a ∈ faceAssignments o rules) : a.keeps = false := by
  obtain ⟨rule, hrule, ha⟩ := List.mem_flatMap.1 ha
  obtain ⟨hrule, hkey⟩ := List.mem_filter.1 hrule
  cases rule with
  | style selectors nodes =>
    exact absurd (Option.some.inj (beq_iff_eq.1 hkey)) (hstyle selectors nodes hrule)
  | fontFace nodes =>
    obtain ⟨d, -, rfl⟩ := List.mem_map.1 ha
    rfl
  | _ => cases ha

/-- **A font face keeps no earlier values.**  There is one object for all font faces.  It holds exactly
those values, under their names or as fallbacks, behind which no font face gives another one to the same
name next.  Where font faces alone add to it, that is the last value of each name. -/
theorem fontFace_holds_iff (o : Options) (rules : List Rule) (hface : ∃ nodes, .fontFace nodes ∈ rules)
    (hnames : ∀ a ∈ faceAssignments o rules, a.name ≠ Object.fallbackKey) :
    ∃ object : Object, (ofRules o rules).get? "@font-face" = some (.nested object) ∧
      (∀ name v, name ≠ Object.fallbackKey → (object.Holds name v ↔ ∃ before a after,
        assignmentsTo name (faceAssignments o rules) = before ++ a :: after ∧ a.value = v ∧
          ∀ next ∈ after.head?, next.keeps = true)) ∧
      ((∀ selectors nodes, .style selectors nodes ∈ rules → selectorKey selectors ≠ "@font-face") →
        ∀ name v, name ≠ Object.fallbackKey → (object.Holds name v ↔
          (assignmentsTo name (faceAssignments o rules)).getLast?.map Assignment.value = some v)) := by
  obtain ⟨nodes, hnodes⟩ := hface
  have hmem : .fontFace nodes ∈ rules.filter (addsTo "@font-face") :=
    List.mem_filter.2 ⟨hnodes, by rw [addsTo, topKey?, beq_self_eq_true]⟩
  have hrecords := Records.foldl_apply hnames
  refine ⟨(faceAssignments o rules).foldl Assignment.apply [], ?_, fun name v hname =>
    hrecords.holds_iff hname v, fun hstyle name v hname => ?_⟩
  · rw [get?_ofRules, if_neg (List.ne_nil_of_mem hmem),
      foldl_editBy_eq_foldl_apply o fun rule hrule => (List.mem_filter.1 hrule).2]
    rfl
  · exact hrecords.holds_iff_getLast? hname (fun a ha =>
      keeps_of_mem_faceAssignments hstyle (List.mem_filter.1 ha).1) v

/-- Of two sources of one font face and the families of two, the earlier ones are gone. -/
theorem fontFace_holds_last : ∃ object : Object,
    (ofRules { dashes := true } [
      .fontFace [.declaration ⟨"font-family", "A"⟩, .declaration ⟨"src", "url(a)"⟩,
        .declaration ⟨"src", "url(b)"⟩],
      .fontFace [.declaration ⟨"font-family", "B"⟩]]).get? "@font-face" = some (.nested object) ∧
    ¬ object.Holds "src" (.scalar "url(a)") ∧ object.Holds "src" (.scalar "url(b)") ∧
    ¬ object.Holds "font-family" (.scalar "A") := by
  have hassignments : faceAssignments { dashes := true } [
      .fontFace [.declaration ⟨"font-family", "A"⟩, .declaration ⟨"src", "url(a)"⟩,
        .declaration ⟨"src", "url(b)"⟩],
      .fontFace [.declaration ⟨"font-family", "B"⟩]] =
    [⟨"font-family", .scalar "A", false⟩, ⟨"src", .scalar "url(a)", false⟩,
      ⟨"src", .scalar "url(b)", false⟩, ⟨"font-family", .scalar "B", false⟩] := rfl
  obtain ⟨object, hget, -, hlast⟩ := fontFace_holds_iff { dashes := true } [
      .fontFace [.declaration ⟨"font-family", "A"⟩, .declaration ⟨"src", "url(a)"⟩,
        .declaration ⟨"src", "url(b)"⟩],
      .fontFace [.declaration ⟨"font-family", "B"⟩]] ⟨_, List.mem_cons_self⟩
    (by rw [hassignments]; decide)
  replace hlast := hlast (by simp)
  rw [hassignments] at hlast
  refine ⟨object, hget, ?_, ?_, ?_⟩
  · rw [hlast _ _ (by decide)]
    simp [assignmentsTo]
  · rw [hlast _ _ (by decide)]
    simp [assignmentsTo]
  · rw [hlast _ _ (by decide)]
    simp [assignmentsTo]

end Restyle.Style
