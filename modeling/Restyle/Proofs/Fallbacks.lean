import Mathlib.Data.List.Basic
import Mathlib.Data.List.Induction
import Restyle.Proofs.Entries
import Restyle.Style.OfRules

/-!
# Fallbacks lose and reorder nothing

The style of a rule is made of the values that its declarations give to names, one after the other.
`Keeps style given` says what is in the style once the values `given` have been given: the last
value of every name in its place, and every earlier value as a fallback, the latest first.

One more value leaves this so (`Keeps.give`).  A name that is new goes to the end of the style and
the fallbacks stay as they are; a name that is there hands its value over to the fallbacks.  The
style of a row of declarations follows by induction (`Keeps.declarations`), and the styles of rules
that share a key are made of all their declarations in a row (`get?_foldl_addStyle`).
-/

namespace Restyle.Style

open Css (Rule Declaration DeclarationEntry)

/-! ## What is kept -/

/-- The value that a name was given last. -/
def latest? (given : List (String × Value)) (name : String) : Option Value :=
  Entries.get? given.reverse name

/-- The fallback that the `j`-th value makes: the value that its name had before. -/
def fallbackAt? (given : List (String × Value)) (j : Nat) : Option Object :=
  (given[j]?).bind fun e => (latest? (given.take j) e.1).map fun v => [(e.1, v)]

/-- The fallbacks that a row of values makes, the latest first. -/
def fallbacksOf (given : List (String × Value)) : List Object :=
  (List.range given.length).reverse.filterMap (fallbackAt? given)

/-- What a style has in it once values have been given to names. -/
structure Keeps (style : Object) (given : List (String × Value)) : Prop where
  /-- A name has the value that it was given last. -/
  get?_eq : ∀ name, name ≠ Object.fallbackKey → style.get? name = latest? given name
  /-- There are fallbacks as soon as a name has been given a value twice. -/
  fallbacks : style.get? Object.fallbackKey =
    if (given.map Prod.fst).Nodup then none else some (.fallbacks (fallbacksOf given))
  /-- Names that do not repeat stand in order. -/
  keys_of_nodup : (given.map Prod.fst).Nodup → style.keys = given.map Prod.fst
  /-- The fallbacks stand behind the names in front of the first repetition, and all names in the
  order in which they were given a value first. -/
  keys_of_repeated : ∀ first name others, given.map Prod.fst = first ++ name :: others →
    first.Nodup → name ∈ first → ∃ later,
      style.keys = first ++ Object.fallbackKey :: later ∧
        (given.map Prod.fst).eraseDups = first ++ later
  /-- Each value is there once, under its name or as a fallback. -/
  perm : (style.without Object.fallbackKey ++ (fallbacksOf given).flatten).Perm given

/-! ## One value more -/

theorem latest?_concat (given : List (String × Value)) (name key : String) (v : Value) :
    latest? (given ++ [(name, v)]) key = if name = key then some v else latest? given key := by
  simp [latest?, Entries.get?]

theorem latest?_eq_none_iff (given : List (String × Value)) (name : String) :
    latest? given name = none ↔ name ∉ given.map Prod.fst := by
  rw [latest?, Entries.get?_eq_none_iff, Entries.keys]
  simp

theorem fallbackAt?_concat_of_lt {given : List (String × Value)} (e : String × Value) {j : Nat}
    (h : j < given.length) : fallbackAt? (given ++ [e]) j = fallbackAt? given j := by
  rw [fallbackAt?, List.getElem?_append_left h, List.take_append_of_le_length (Nat.le_of_lt h)]
  rfl

theorem fallbacksOf_concat (given : List (String × Value)) (name : String) (v : Value) :
    fallbacksOf (given ++ [(name, v)]) =
      ((latest? given name).map fun old => [(name, old)]).toList ++ fallbacksOf given := by
  have newest : fallbackAt? (given ++ [(name, v)]) given.length =
      (latest? given name).map fun old => [(name, old)] := by
    simp [fallbackAt?]
  have earlier : (List.range given.length).reverse.filterMap (fallbackAt? (given ++ [(name, v)])) =
      fallbacksOf given := by
    refine List.filterMap_congr fun j hj => fallbackAt?_concat_of_lt _ ?_
    simpa using hj
  rw [fallbacksOf, List.length_append, List.length_singleton, List.range_succ, List.reverse_append,
    List.reverse_singleton, List.singleton_append, List.filterMap_cons, newest, earlier]
  cases latest? given name <;> rfl

/-- Names that do not repeat have no fallbacks. -/
theorem fallbacksOf_of_nodup {given : List (String × Value)} (h : (given.map Prod.fst).Nodup) :
    fallbacksOf given = [] := by
  induction given using List.reverseRecOn with
  | nil => rfl
  | append_singleton given e ih =>
    obtain ⟨name, v⟩ := e
    rw [List.map_append, List.nodup_append] at h
    have new : name ∉ given.map Prod.fst := fun hmem => h.2.2 _ hmem name (by simp) rfl
    rw [fallbacksOf_concat, (latest?_eq_none_iff _ _).2 new, ih h.1]
    rfl

/-- The objects in the list of fallbacks of a style. -/
def fallbacksIn (style : Object) : List Object :=
  match style.get? Object.fallbackKey with
  | some (.fallbacks objects) => objects
  | _ => []

theorem addFallback_eq_insert (style fallback : Object) : addFallback style fallback =
    style.insert Object.fallbackKey (.fallbacks (fallback :: fallbacksIn style)) := rfl

theorem fallbacksIn_addFallback (style fallback : Object) :
    fallbacksIn (addFallback style fallback) = fallback :: fallbacksIn style := by
  unfold fallbacksIn
  rw [addFallback_eq_insert, Entries.get?_insert_self]
  rfl

theorem fallbacksIn_insert_of_ne (style : Object) {name : String} (h : name ≠ Object.fallbackKey)
    (v : Value) : fallbacksIn (style.insert name v) = fallbacksIn style := by
  unfold fallbacksIn
  rw [Entries.get?_insert_of_ne _ _ h.symm]

/-- Gives a value to a name of a style.  The value that it had becomes a fallback. -/
def give (style : Object) (e : String × Value) : Object :=
  (match style.get? e.1 with
    | some previous => addFallback style [(e.1, previous)]
    | none => style).insert e.1 e.2

theorem give_of_get?_none {style : Object} {name : String} (h : style.get? name = none)
    (v : Value) : give style (name, v) = style ++ [(name, v)] := by
  have new := (Entries.get?_eq_none_iff _ _).1 h
  simp only [give, h]
  exact Entries.insert_of_notMem new v

/-- The keys in order of their first places. -/
theorem eraseDups_concat (names : List String) (name : String) :
    (names ++ [name]).eraseDups =
      if name ∈ names then names.eraseDups else names.eraseDups ++ [name] := by
  rw [List.eraseDups_append]
  by_cases h : name ∈ names <;> simp [List.removeAll, h, List.eraseDups_cons]

theorem eraseDups_of_nodup {names : List String} (h : names.Nodup) : names.eraseDups = names := by
  induction names using List.reverseRecOn with
  | nil => rfl
  | append_singleton names name ih =>
    rw [List.nodup_append] at h
    have new : name ∉ names := fun hmem => h.2.2 _ hmem name (by simp) rfl
    rw [eraseDups_concat, if_neg new, ih h.1]

namespace Keeps

variable {style : Object} {given : List (String × Value)} {name : String}

theorem nil : Keeps [] [] where
  get?_eq _ _ := rfl
  fallbacks := rfl
  keys_of_nodup _ := rfl
  keys_of_repeated first name others h := by simp at h
  perm := List.Perm.nil

theorem addFallback_eq (h : Keeps style given) (fallback : Object) :
    addFallback style fallback =
      style.insert Object.fallbackKey (.fallbacks (fallback :: fallbacksOf given)) := by
  rw [addFallback, h.fallbacks]
  by_cases hn : (given.map Prod.fst).Nodup
  · rw [if_pos hn, fallbacksOf_of_nodup hn]
  · rw [if_neg hn]

/-- There are fallbacks in a style exactly when a name repeats. -/
theorem fallbackKey_mem_iff (h : Keeps style given) :
    Object.fallbackKey ∈ style.keys ↔ ¬ (given.map Prod.fst).Nodup := by
  rw [← not_iff_not, ← Entries.get?_eq_none_iff, h.fallbacks]
  by_cases hn : (given.map Prod.fst).Nodup <;> simp [hn]

/-- A name that is new goes to the end. -/
theorem give_new (h : Keeps style given) (hname : name ≠ Object.fallbackKey)
    (new : name ∉ given.map Prod.fst) (v : Value) :
    Keeps (give style (name, v)) (given ++ [(name, v)]) := by
  have none := (latest?_eq_none_iff _ _).2 new
  have items : fallbacksOf (given ++ [(name, v)]) = fallbacksOf given := by
    rw [fallbacksOf_concat, none]; rfl
  have nodup : ((given ++ [(name, v)]).map Prod.fst).Nodup ↔ (given.map Prod.fst).Nodup := by
    rw [List.map_append, List.nodup_append]
    exact ⟨fun hn => hn.1, fun hn => ⟨hn, by simp, fun a ha b hb => by
      rintro rfl
      simp only [List.map_cons, List.map_nil, List.mem_singleton] at hb
      exact new (hb ▸ ha)⟩⟩
  rw [give_of_get?_none (by rw [h.get?_eq _ hname, none])]
  refine ⟨fun key hkey => ?_, ?_, fun hn => ?_, fun first p others heq hfirst hp => ?_, ?_⟩
  · rw [Entries.get?_append, h.get?_eq key hkey, latest?_concat]
    by_cases hk : name = key
    · subst hk
      simp [none, Entries.get?]
    · simp [Entries.get?, hk]
  · rw [Entries.get?_append, h.fallbacks, items]
    by_cases hn : (given.map Prod.fst).Nodup
    · rw [if_pos hn, if_pos (nodup.2 hn)]
      simp [Entries.get?, hname]
    · rw [if_neg hn, if_neg (fun hn' => hn (nodup.1 hn'))]
      rfl
  · have := h.keys_of_nodup (nodup.1 hn)
    simp only [Entries.keys] at this
    simp [Entries.keys, this]
  · -- the first repetition is among the names before
    rcases List.eq_nil_or_concat others with rfl | ⟨others, q, rfl⟩
    · simp only [List.map_append, List.map_cons, List.map_nil] at heq
      obtain ⟨rfl, hq⟩ := List.append_inj' heq rfl
      simp only [List.cons.injEq, and_true] at hq
      exact absurd (hq ▸ hp) new
    · simp only [List.map_append, List.map_cons, List.map_nil, List.concat_eq_append,
        ← List.cons_append, ← List.append_assoc] at heq
      obtain ⟨heq, -⟩ := List.append_inj' heq rfl
      obtain ⟨later, keys, erased⟩ := h.keys_of_repeated first p others (by simpa using heq) hfirst hp
      refine ⟨later ++ [name], ?_, ?_⟩
      · simp only [Entries.keys] at keys
        simp [Entries.keys, keys]
      · rw [List.map_append, List.map_cons, List.map_nil, eraseDups_concat, if_neg new, erased,
          List.append_assoc]
  · have kept : Entries.without (style ++ [(name, v)]) Object.fallbackKey =
        style.without Object.fallbackKey ++ [(name, v)] := by
      simp [Entries.without, hname]
    rw [kept, items, List.append_assoc]
    have swap : ([(name, v)] ++ (fallbacksOf given).flatten).Perm
        ((fallbacksOf given).flatten ++ [(name, v)]) := List.perm_append_comm
    refine (swap.append_left _).trans ?_
    rw [← List.append_assoc]
    exact h.perm.append_right _

/-- A name that is there keeps its place and hands its value over to the fallbacks. -/
theorem give_again (h : Keeps style given) (hname : name ≠ Object.fallbackKey)
    (again : name ∈ given.map Prod.fst) (v : Value) :
    Keeps (give style (name, v)) (given ++ [(name, v)]) := by
  obtain ⟨old, hold⟩ : ∃ old, latest? given name = some old :=
    Option.ne_none_iff_exists'.1 fun hn => (latest?_eq_none_iff _ _).1 hn again
  have items : fallbacksOf (given ++ [(name, v)]) = [(name, old)] :: fallbacksOf given := by
    rw [fallbacksOf_concat, hold]; rfl
  have repeated : ¬ ((given ++ [(name, v)]).map Prod.fst).Nodup := by
    rw [List.map_append, List.nodup_append]
    exact fun hn => hn.2.2 _ again name (by simp) rfl
  have hget : style.get? name = some old := by rw [h.get?_eq _ hname, hold]
  have given_eq : give style (name, v) =
      (style.insert Object.fallbackKey (.fallbacks ([(name, old)] :: fallbacksOf given))).insert
        name v := by
    simp only [give, hget, h.addFallback_eq]
  have present : name ∈ style.keys := by
    by_contra hn
    rw [← Entries.get?_eq_none_iff, hget] at hn
    cases hn
  have keys_eq : (give style (name, v)).keys = if Object.fallbackKey ∈ style.keys then style.keys
      else style.keys ++ [Object.fallbackKey] := by
    rw [given_eq, Entries.keys_insert, Entries.keys_insert]
    by_cases hf : Object.fallbackKey ∈ style.keys <;> simp [hf, present]
  refine ⟨fun key hkey => ?_, ?_, fun hn => absurd hn repeated,
    fun first p others heq hfirst hp => ?_, ?_⟩
  · rw [given_eq, latest?_concat]
    by_cases hk : name = key
    · subst hk
      rw [Entries.get?_insert_self, if_pos rfl]
    · rw [Entries.get?_insert_of_ne _ _ (Ne.symm hk), Entries.get?_insert_of_ne _ _ hkey,
        h.get?_eq key hkey, if_neg hk]
  · rw [given_eq, Entries.get?_insert_of_ne _ _ (Ne.symm hname), Entries.get?_insert_self,
      if_neg repeated, items]
  · rcases List.eq_nil_or_concat others with rfl | ⟨others, q, rfl⟩
    · -- this is the first repetition
      simp only [List.map_append, List.map_cons, List.map_nil] at heq
      obtain ⟨rfl, -⟩ := List.append_inj' heq rfl
      refine ⟨[], ?_, ?_⟩
      · rw [keys_eq, if_neg (fun hf => h.fallbackKey_mem_iff.1 hf hfirst), h.keys_of_nodup hfirst]
      · rw [List.map_append, List.map_cons, List.map_nil, eraseDups_concat, if_pos again,
          eraseDups_of_nodup hfirst, List.append_nil]
    · simp only [List.map_append, List.map_cons, List.map_nil, List.concat_eq_append,
        ← List.cons_append, ← List.append_assoc] at heq
      obtain ⟨heq, -⟩ := List.append_inj' heq rfl
      obtain ⟨later, keys, erased⟩ := h.keys_of_repeated first p others (by simpa using heq) hfirst hp
      refine ⟨later, ?_, ?_⟩
      · rw [keys_eq, if_pos (by rw [keys]; simp), keys]
      · rw [List.map_append, List.map_cons, List.map_nil, eraseDups_concat, if_pos again, erased]
  · have kept : (give style (name, v)).without Object.fallbackKey =
        (style.without Object.fallbackKey).insert name v := by
      rw [given_eq, Entries.without_insert_of_ne _ hname, Entries.without_insert_self]
    have swapped := Entries.insert_perm
      (by rw [Entries.get?_without _ hname, hget] : (style.without Object.fallbackKey).get? name =
        some old) v
    rw [kept, items, List.flatten_cons, List.singleton_append]
    refine List.perm_middle.trans ?_
    rw [← List.cons_append]
    refine (swapped.append_right _).trans ?_
    rw [List.cons_append]
    exact (h.perm.cons _).trans (List.perm_append_singleton _ _).symm

theorem give (h : Keeps style given) (hname : name ≠ Object.fallbackKey) (v : Value) :
    Keeps (Style.give style (name, v)) (given ++ [(name, v)]) := by
  by_cases hmem : name ∈ given.map Prod.fst
  · exact h.give_again hname hmem v
  · exact h.give_new hname hmem v

end Keeps

/-! ## The style of rules that share a key -/

/-- The name in a style that a declaration gives a value to, with the value. -/
def namedValue (o : Options) (d : Declaration) : String × Value :=
  (propertyKey d.property o.dashes, declaredValue o d)

theorem addDeclaration_eq_give (o : Options) (style : Object) (d : Declaration) :
    addDeclaration o style d = give style (namedValue o d) := rfl

theorem Keeps.declarations {o : Options} {style : Object} {given : List (String × Value)}
    (h : Keeps style given) {ds : List Declaration}
    (hname : ∀ d ∈ ds, propertyKey d.property o.dashes ≠ Object.fallbackKey) :
    Keeps (ds.foldl (addDeclaration o) style) (given ++ ds.map (namedValue o)) := by
  induction ds generalizing style given with
  | nil => simpa using h
  | cons d ds ih =>
    have step : Keeps (addDeclaration o style d) (given ++ [namedValue o d]) :=
      h.give (hname d List.mem_cons_self) _
    have rest := ih step fun d' hd' => hname d' (List.mem_cons_of_mem _ hd')
    rwa [List.append_assoc] at rest

theorem get?_modifyObject_self (styles : Object) (key : String) (edit : Object → Object) :
    (modifyObject styles key edit).get? key = some (.nested (edit (objectAt styles key))) :=
  Entries.get?_insert_self _ _ _

theorem objectAt_of_get? {styles object : Object} {key : String}
    (h : styles.get? key = some (.nested object)) : objectAt styles key = object := by
  rw [objectAt, h]; rfl

theorem objectAt_of_get?_none {styles : Object} {key : String} (h : styles.get? key = none) :
    objectAt styles key = [] := by
  rw [objectAt, h]; rfl

/-- Changes to the object under one key, one after the other. -/
theorem get?_foldl_modifyObject {β : Type} (edit : β → Object → Object) (key : String)
    {bs : List β} (hne : bs ≠ []) (styles : Object) :
    (bs.foldl (fun styles b => modifyObject styles key (edit b)) styles).get? key =
      some (.nested (bs.foldl (fun object b => edit b object) (objectAt styles key))) := by
  induction bs generalizing styles with
  | nil => exact absurd rfl hne
  | cons b bs ih =>
    have first := get?_modifyObject_self styles key (edit b)
    cases bs with
    | nil => exact first
    | cons b' bs => rw [List.foldl_cons, ih (by simp), objectAt_of_get? first]; rfl

/-- Rules that share a key, added to a table. -/
theorem get?_foldl_addStyle (o : Options) {key : String}
    {rules : List (List String × List DeclarationEntry)}
    (hkey : ∀ r ∈ rules, selectorKey r.1 = key) (hne : rules ≠ []) (styles : Object) :
    (rules.foldl (fun styles r => addStyle o styles r.1 r.2) styles).get? key =
      some (.nested ((rules.flatMap fun r => declarationsOf r.2).foldl (addDeclaration o)
        (objectAt styles key))) := by
  have same : rules.foldl (fun styles r => addStyle o styles r.1 r.2) styles =
      rules.foldl (fun styles r => modifyObject styles key fun style =>
        (declarationsOf r.2).foldl (addDeclaration o) style) styles :=
    List.foldl_ext _ _ _ fun styles r hr => by rw [addStyle, hkey r hr]
  rw [same, get?_foldl_modifyObject _ _ hne, List.foldl_flatMap]

/-- **Fallbacks lose and reorder nothing.**  Rules that share a key make one style of all their
declarations, be it at the top of a style sheet or inside media groups with one query: no value is
lost, none is there twice, and names and fallbacks stand in their order. -/
theorem keeps_of_shared_key (o : Options) (key : String)
    (rules : List (List String × List DeclarationEntry))
    (hkey : ∀ r ∈ rules, selectorKey r.1 = key) (hne : rules ≠ [])
    (hname : ∀ r ∈ rules, ∀ d ∈ declarationsOf r.2,
      propertyKey d.property o.dashes ≠ Object.fallbackKey) :
    (∀ styles : Object, styles.get? key = none → ∃ style : Object,
      ((rules.map fun r => Rule.style r.1 r.2).foldl (addTopRule o) styles).get? key =
        some (.nested style) ∧
      Keeps style ((rules.flatMap fun r => declarationsOf r.2).map (namedValue o))) ∧
    ∀ (styles : Object) (query : String) (blocks : List (List Rule)),
      (objectAt styles ("@media " ++ query)).get? key = none →
      blocks.flatten = (rules.map fun r => Rule.style r.1 r.2) → ∃ block style : Object,
        ((blocks.map (Rule.group (.media query))).foldl (addTopRule o) styles).get?
          ("@media " ++ query) = some (.nested block) ∧
        block.get? key = some (.nested style) ∧
        Keeps style ((rules.flatMap fun r => declarationsOf r.2).map (namedValue o)) := by
  have keeps : Keeps ((rules.flatMap fun r => declarationsOf r.2).foldl (addDeclaration o) [])
      ((rules.flatMap fun r => declarationsOf r.2).map (namedValue o)) := by
    refine Keeps.nil.declarations fun d hd => ?_
    obtain ⟨r, hr, hd⟩ := List.mem_flatMap.1 hd
    exact hname r hr d hd
  refine ⟨fun styles hnone => ⟨_, ?_, keeps⟩, fun styles query blocks hnone hblocks => ?_⟩
  · rw [List.foldl_map]
    exact (get?_foldl_addStyle o hkey hne styles).trans (by rw [objectAt_of_get?_none hnone])
  · have hblocksNe : blocks ≠ [] := by
      rintro rfl
      exact hne (List.map_eq_nil_iff.1 hblocks.symm)
    refine ⟨blocks.flatten.foldl (addInMedia o) (objectAt styles ("@media " ++ query)), _, ?_, ?_,
      keeps⟩
    · rw [List.foldl_map, List.foldl_flatten]
      exact get?_foldl_modifyObject (fun rules block => rules.foldl (addInMedia o) block) _
        hblocksNe styles
    · rw [hblocks, List.foldl_map]
      exact (get?_foldl_addStyle o hkey hne _).trans (by rw [objectAt_of_get?_none hnone])

/-- Two rules of one class that colour it three times. -/
theorem keeps_of_two_rules : ∃ style : Object,
    (ofRules { dashes := true } [
      .style [".a"] [.declaration ⟨"color", "red"⟩, .declaration ⟨"top", "0"⟩,
        .declaration ⟨"color", "blue"⟩],
      .style [".a"] [.comment "again", .declaration ⟨"color", "\\9"⟩]]).get? "a" =
        some (.nested style) ∧
    Keeps style [("color", .scalar "red"), ("top", .scalar "0"), ("color", .scalar "blue"),
      ("color", .scalar "\\\\9")] :=
  (keeps_of_shared_key { dashes := true } "a"
    [([".a"], [.declaration ⟨"color", "red"⟩, .declaration ⟨"top", "0"⟩,
        .declaration ⟨"color", "blue"⟩]),
      ([".a"], [.comment "again", .declaration ⟨"color", "\\9"⟩])]
    (by decide +kernel) (by decide) (by decide +kernel)).1 [] rfl

end Restyle.Style
