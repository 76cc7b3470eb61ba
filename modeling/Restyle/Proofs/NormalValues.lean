import Restyle.Proofs.JsonReadBack
import Restyle.Proofs.RoundTrip
import Restyle.Style.Module

/-!
# Style values and JSON, there and back

JSON cannot tell all style values apart: numbers that are not finite become `null`, zero loses its sign,
and a list of objects is a list of fallbacks.  `Value.normal` is what is left of a value.  Reading the
JSON of a value gives its normal form (`ofJson_toJson`), and what has been read is normal up to the sign
of zero (`normal_equal`).
-/

namespace Restyle

namespace Double

/-! ## Whole numbers -/

theorem units_eq_zero_iff {code : Nat} : units code = 0 ↔ code = 0 := by
  refine ⟨fun h => ?_, fun h => by rw [h]; decide⟩
  by_contra hne
  have hpos := Nat.mul_pos (significand_pos hne) (Nat.two_pow_pos (scale code))
  rw [← units_eq, h] at hpos
  exact Nat.lt_irrefl 0 hpos

/-- A double that is a whole number is the one nearest to that number, but for the sign of zero. -/
theorem ofInt_of_toInt? {n : Double} {i : Int} (h : n.toInt? = some i) :
    ofInt i = n.unsignedZero := by
  cases n with
  | nan => cases h
  | infinite => cases h
  | finite negative code =>
    rw [toInt?] at h
    split at h
    · next hwhole =>
      obtain ⟨k, hk⟩ : ∃ k, units code / Nat.pow 2 unitExponent = k := ⟨_, rfl⟩
      have hunits : k * Nat.pow 2 unitExponent = units code := by
        rw [← hk]
        exact Nat.div_mul_cancel (Nat.dvd_of_mod_eq_zero hwhole)
      have hi : i = if negative then -(k : Int) else k := by
        rw [← hk]
        exact (Option.some.inj h).symm
      have habs : i.natAbs = k := by
        rw [hi]
        split <;> omega
      have hpow : ∀ u, ¬Nat.pow 2 u = 0 := fun u => (Nat.two_pow_pos u).ne'
      have hzero : k = 0 ↔ code.val = 0 := by
        have hcode : units code.val = 0 ↔ code.val = 0 := units_eq_zero_iff
        rw [← hcode, ← hunits, Nat.mul_eq_zero]
        exact (or_iff_left (hpow unitExponent)).symm
      have hsign : decide (i < 0) = (negative && code.val != 0) := by
        rw [hi]
        cases negative with
        | false => simp
        | true => by_cases hcode : code.val = 0 <;> simp [Nat.pos_iff_ne_zero, hzero, hcode]
      rw [ofInt, nearest, habs, hunits, nearestCode_units, ofCode_of_lt _ code.isLt, hsign,
        unsignedZero]
    · cases h

theorem nearestCode_le (n : Nat) : nearestCode n 1 ≤ (n.log2 + 1 - 53) * 2 ^ 52 + 2 ^ 53 := by
  have hscale := Nat.lt_log2_self (n := n)
  have hdiv : divEven n (1 * Nat.pow 2 (n.log2 + 1 - 53)) ≤ 2 ^ 53 := by
    have hquotient : n / 2 ^ (n.log2 + 1 - 53) < 2 ^ 53 := by
      rw [Nat.div_lt_iff_lt_mul (Nat.two_pow_pos _), ← Nat.pow_add]
      exact hscale.trans_le (Nat.pow_le_pow_right (by decide) (by omega))
    rw [Nat.one_mul, Nat.pow_eq]
    unfold divEven
    dsimp only
    split
    · omega
    split
    · omega
    · omega
  rw [nearestCode, Nat.div_one]
  exact Nat.add_le_add_left hdiv _

/-- Whole numbers of at most 64 bits are finite doubles. -/
theorem isFinite_ofInt {n : Int} (hleast : -(2 ^ 63) ≤ n) (hgreatest : n < 2 ^ 64) :
    (ofInt n).isFinite = true := by
  have hcode : nearestCode (n.natAbs * Nat.pow 2 unitExponent) 1 < magnitudes := by
    have hlog : ∀ u, (n.natAbs * Nat.pow 2 u).log2 < 65 + u := fun u => by
      have hsize : n.natAbs * Nat.pow 2 u < 2 ^ (65 + u) := by
        rw [Nat.pow_eq, Nat.pow_add]
        exact Nat.mul_lt_mul_of_pos_right (by omega) (Nat.two_pow_pos u)
      by_cases hzero : n.natAbs * Nat.pow 2 u = 0
      · rw [hzero, Nat.log2_zero]
        omega
      · exact (Nat.log2_lt hzero).2 hsize
    replace hlog := hlog unitExponent
    generalize n.natAbs * Nat.pow 2 unitExponent = m at hlog ⊢
    have hunit : unitExponent = 1074 := rfl
    have hmul := Nat.mul_le_mul_right (2 ^ 52) (show m.log2 + 1 - 53 ≤ 1087 by omega)
    have hbound : 1087 * 2 ^ 52 + 2 ^ 53 < magnitudes := by decide
    exact (nearestCode_le m).trans_lt ((Nat.add_le_add_right hmul _).trans_lt hbound)
  rw [ofInt, nearest, ofCode_of_lt _ hcode]
  rfl

@[simp] theorem isFinite_unsignedZero (n : Double) : n.unsignedZero.isFinite = n.isFinite := by
  cases n <;> rfl

@[simp] theorem unsignedZero_unsignedZero (n : Double) :
    n.unsignedZero.unsignedZero = n.unsignedZero := by
  cases n with
  | finite negative code => simp [unsignedZero]
  | _ => rfl

end Double

namespace Style

namespace Value

/-! ## Normal values -/

/-- A list of nothing but objects as a list of fallbacks. -/
def gathered (items : List Value) : Value :=
  if items.all fun v => v.nested?.isSome then .fallbacks (items.filterMap nested?) else .list items

mutual

/-- What a value is in JSON: numbers that are not finite are `null`, zero has no sign, and a list of
objects, an empty one too, is a list of fallbacks. -/
def normal : Value → Value
  | .scalar text => .scalar text
  | .number n => if n.isFinite then .number n.unsignedZero else .null
  | .nested entries => .nested (normalEntries entries)
  | .fallbacks objects => .fallbacks (normalObjects objects)
  | .list items => gathered (normalItems items)
  | .boolean b => .boolean b
  | .null => .null

def normalEntries : List (String × Value) → List (String × Value)
  | [] => []
  | (k, v) :: rest => (k, normal v) :: normalEntries rest

def normalObjects : List (List (String × Value)) → List (List (String × Value))
  | [] => []
  | entries :: rest => normalEntries entries :: normalObjects rest

def normalItems : List Value → List Value
  | [] => []
  | v :: rest => normal v :: normalItems rest

end

theorem normalEntries_eq_map (entries : List (String × Value)) :
    normalEntries entries = entries.map fun e => (e.1, normal e.2) := by
  induction entries with
  | nil => rfl
  | cons e rest ih => rw [normalEntries, ih, List.map_cons]

theorem keys_normalEntries (entries : List (String × Value)) :
    Entries.keys (normalEntries entries) = Entries.keys entries := by
  rw [normalEntries_eq_map, Entries.keys, List.map_map]
  rfl

theorem normalObjects_eq_map (objects : List (List (String × Value))) :
    normalObjects objects = objects.map normalEntries := by
  induction objects with
  | nil => rfl
  | cons entries rest ih => rw [normalObjects, ih, List.map_cons]

theorem normalItems_eq_map (items : List Value) : normalItems items = items.map normal := by
  induction items with
  | nil => rfl
  | cons v rest ih => rw [normalItems, ih, List.map_cons]

theorem gathered_nested (objects : List (List (String × Value))) :
    gathered (objects.map .nested) = .fallbacks objects := by
  have hall : (objects.map nested).all (fun v => v.nested?.isSome) = true :=
    List.all_eq_true.2 fun v hv => by
      obtain ⟨es, -, rfl⟩ := List.mem_map.1 hv
      rfl
  have hfilter : (objects.map nested).filterMap nested? = objects := by
    rw [List.filterMap_map]
    exact List.filterMap_some
  rw [gathered, if_pos hall, hfilter]

/-- Either all items are objects, or the list stays a list. -/
theorem gathered_cases (items : List Value) :
    (∃ objects, items = objects.map .nested ∧ gathered items = .fallbacks objects) ∨
      items.all (fun v => v.nested?.isSome) = false ∧ gathered items = .list items := by
  cases hall : items.all fun v => v.nested?.isSome with
  | false => exact .inr ⟨rfl, by rw [gathered, hall]; rfl⟩
  | true =>
    have hmap : items = (items.filterMap nested?).map .nested := by
      induction items with
      | nil => rfl
      | cons v items ih =>
        simp only [List.all_cons, Bool.and_eq_true] at hall
        cases v with
        | nested es => exact congrArg (.nested es :: ·) (ih hall.2)
        | _ => cases hall.1
    exact .inl ⟨_, hmap, by rw [gathered, hall]; rfl⟩

theorem isSome_nested?_gathered (items : List Value) : (gathered items).nested?.isSome = false := by
  rcases gathered_cases items with ⟨objects, -, heq⟩ | ⟨-, heq⟩ <;> rw [heq] <;> rfl

/-- Objects stay objects, and nothing else becomes one. -/
theorem isSome_nested?_normal (v : Value) : v.normal.nested?.isSome = v.nested?.isSome := by
  cases v with
  | number n => rw [normal]; split <;> rfl
  | list items => exact isSome_nested?_gathered _
  | _ => rfl

theorem ofItems_eq_gathered (items : List Value) : ofItems items = gathered items := by
  rw [ofItems]
  rcases gathered_cases items with ⟨objects, rfl, heq⟩ | ⟨hall, heq⟩
  · have hmapM : (objects.map nested).mapM nested? = some objects := by
      clear heq
      induction objects with
      | nil => rfl
      | cons es rest ih => rw [List.map_cons, List.mapM_cons, ih]; rfl
    rw [hmapM, heq]
  · have hmapM : items.mapM nested? = none := by
      clear heq
      induction items with
      | nil => cases hall
      | cons v items ih =>
        rw [List.mapM_cons]
        cases v with
        | nested es => rw [ih (by simpa [nested?] using hall)]; rfl
        | _ => rfl
    rw [hmapM, heq]

/-! ### Normal values stay as they are -/

theorem normal_gathered {items : List Value} (h : ∀ v ∈ items, v.normal = v) :
    (gathered items).normal = gathered items := by
  rcases gathered_cases items with ⟨objects, rfl, heq⟩ | ⟨-, heq⟩
  · have hobjects : objects.map normalEntries = objects := by
      refine (List.map_congr_left fun es hes => ?_).trans (List.map_id objects)
      exact Value.nested.inj (h (.nested es) (List.mem_map_of_mem hes))
    rw [heq, normal, normalObjects_eq_map, hobjects]
  · have hitems : items.map normal = items :=
      (List.map_congr_left h).trans (List.map_id items)
    conv_lhs => rw [heq, normal, normalItems_eq_map, hitems]

mutual

theorem normal_normal : ∀ v : Value, v.normal.normal = v.normal
  | .scalar _ => rfl
  | .number n => by
    rw [normal]
    split
    · next h => rw [normal, Double.isFinite_unsignedZero, if_pos h, Double.unsignedZero_unsignedZero]
    · rfl
  | .nested entries => by rw [normal, normal, normalEntries_normal entries]
  | .fallbacks objects => by rw [normal, normal, normalObjects_normal objects]
  | .list items => by
    rw [normal]
    exact normal_gathered (normalItems_normal items)
  | .boolean _ => rfl
  | .null => rfl

theorem normalEntries_normal : ∀ entries, normalEntries (normalEntries entries) = normalEntries entries
  | [] => rfl
  | (k, v) :: rest => by
    rw [normalEntries, normalEntries, normal_normal v, normalEntries_normal rest]

theorem normalObjects_normal : ∀ objects, normalObjects (normalObjects objects) = normalObjects objects
  | [] => rfl
  | entries :: rest => by
    rw [normalObjects, normalObjects, normalEntries_normal entries, normalObjects_normal rest]

theorem normalItems_normal : ∀ items, ∀ w ∈ normalItems items, w.normal = w
  | [] => nofun
  | v :: rest => List.forall_mem_cons.2 ⟨normal_normal v, normalItems_normal rest⟩

end

/-! ## Values in JSON -/

theorem entriesJson_eq_map (entries : List (String × Value)) :
    entriesJson entries = entries.map fun e => (e.1, e.2.toJson) := by
  induction entries with
  | nil => rfl
  | cons e rest ih => rw [entriesJson, ih, List.map_cons]

theorem objectsJson_eq_map (objects : List (List (String × Value))) :
    objectsJson objects = objects.map fun es => (nested es).toJson := by
  induction objects with
  | nil => rfl
  | cons entries rest ih => rw [objectsJson, ih, List.map_cons, toJson]

theorem itemsJson_eq_map (items : List Value) : itemsJson items = items.map toJson := by
  induction items with
  | nil => rfl
  | cons v rest ih => rw [itemsJson, ih, List.map_cons]

theorem ofJsonItems_eq_map (items : List Json) : ofJsonItems items = items.map ofJson := by
  induction items with
  | nil => rfl
  | cons v rest ih => rw [ofJsonItems, ih, List.map_cons]

theorem ofJsonMembers_eq_map (members : List (String × Json)) :
    ofJsonMembers members = members.map fun m => (m.1, ofJson m.2) := by
  induction members with
  | nil => rfl
  | cons m rest ih => rw [ofJsonMembers, ih, List.map_cons]

/-- Values with at most `d` objects and lists in one another, no object with a key twice. -/
inductive Within : Nat → Value → Prop
  | scalar {d : Nat} (text : String) : Within d (.scalar text)
  | number {d : Nat} (n : Double) : Within d (.number n)
  | nested {d : Nat} {entries : List (String × Value)} (hkeys : (Entries.keys entries).Nodup)
    (h : ∀ e ∈ entries, Within d e.2) : Within (d + 1) (.nested entries)
  | fallbacks {d : Nat} {objects : List (List (String × Value))}
    (h : ∀ es ∈ objects, Within d (.nested es)) : Within (d + 1) (.fallbacks objects)
  | list {d : Nat} {items : List Value} (h : ∀ v ∈ items, Within d v) : Within (d + 1) (.list items)
  | boolean {d : Nat} (b : Bool) : Within d (.boolean b)
  | null {d : Nat} : Within d .null

theorem Within.mono {d d' : Nat} {v : Value} (h : v.Within d) (hd : d ≤ d') : v.Within d' := by
  induction h generalizing d' with
  | scalar text => exact .scalar text
  | number n => exact .number n
  | boolean b => exact .boolean b
  | null => exact .null
  | @nested d _ hkeys _ ih =>
    obtain ⟨k, rfl⟩ := Nat.exists_eq_add_of_le hd
    rw [Nat.add_right_comm]
    exact .nested hkeys fun e he => ih e he (Nat.le_add_right d k)
  | @fallbacks d _ _ ih =>
    obtain ⟨k, rfl⟩ := Nat.exists_eq_add_of_le hd
    rw [Nat.add_right_comm]
    exact .fallbacks fun es hes => ih es hes (Nat.le_add_right d k)
  | @list d _ _ ih =>
    obtain ⟨k, rfl⟩ := Nat.exists_eq_add_of_le hd
    rw [Nat.add_right_comm]
    exact .list fun v hv => ih v hv (Nat.le_add_right d k)

theorem within_numberJson (d : Nat) (n : Double) : (numberJson n).Within d := by
  rw [numberJson]
  split
  · next hfinite =>
    split
    · next i _ =>
      split
      · next hsafe =>
        have hbound : Double.safeInteger < 2 ^ 53 := by decide
        exact .integer (by omega) (by omega)
      · exact .double hfinite
    · exact .double hfinite
  · exact .null

/-- The JSON of a value is nested as deep as the value. -/
theorem Within.toJson {d : Nat} {v : Value} (h : v.Within d) : v.toJson.Within d := by
  induction h with
  | scalar text => exact .string text
  | number n => exact within_numberJson _ n
  | nested _ _ ih =>
    rw [Value.toJson, entriesJson_eq_map]
    refine .object fun m hm => ?_
    obtain ⟨e, he, rfl⟩ := List.mem_map.1 hm
    exact ih e he
  | fallbacks _ ih =>
    rw [Value.toJson, objectsJson_eq_map]
    refine .array fun w hw => ?_
    obtain ⟨es, hes, rfl⟩ := List.mem_map.1 hw
    exact ih es hes
  | list _ ih =>
    rw [Value.toJson, itemsJson_eq_map]
    refine .array fun w hw => ?_
    obtain ⟨v, hv, rfl⟩ := List.mem_map.1 hw
    exact ih v hv
  | boolean b => exact .boolean b
  | null => exact .null

/-- Numbers that are not written as integers are not zero. -/
theorem unsignedZero_of_toInt? {n : Double} (h : ∀ i, n.toInt? = some i → i ≠ 0) :
    n.unsignedZero = n := by
  cases n with
  | finite negative code =>
    have hcode : code.val ≠ 0 := by
      intro hcode
      refine h 0 ?_ rfl
      rw [Double.toInt?, hcode, Double.units_eq_zero_iff.2 rfl]
      simp
    simp [Double.unsignedZero, hcode]
  | _ => rfl

theorem ofJson_numberJson (n : Double) : ofJson (numberJson n) = (number n).normal := by
  rw [numberJson, normal]
  split
  · split
    · next i hi =>
      split
      · rw [ofJson, Double.ofInt_of_toInt? hi]
      · next hlarge =>
        have hne : ∀ j, n.toInt? = some j → j ≠ 0 := by
          rintro j hj rfl
          obtain rfl := Option.some.inj (hi.symm.trans hj)
          exact hlarge (Nat.zero_le _)
        rw [ofJson, unsignedZero_of_toInt? hne]
    · next hnone =>
      have hne : ∀ j, n.toInt? = some j → j ≠ 0 := fun j hj => nomatch hnone.symm.trans hj
      rw [ofJson, unsignedZero_of_toInt? hne]
  · rfl

/-- Reading the JSON of a value gives its normal form. -/
theorem ofJson_toJson {d : Nat} {v : Value} (h : v.Within d) : ofJson v.toJson = v.normal := by
  induction h with
  | scalar text => rfl
  | number n => exact ofJson_numberJson n
  | @nested d entries hkeys _ ih =>
    have hmembers : ofJsonMembers (entriesJson entries) = normalEntries entries := by
      rw [entriesJson_eq_map, ofJsonMembers_eq_map, normalEntries_eq_map, List.map_map]
      exact List.map_congr_left fun e he => congrArg (Prod.mk e.1) (ih e he)
    have hnodup : (Entries.keys (normalEntries entries)).Nodup := by
      rw [keys_normalEntries]
      exact hkeys
    rw [toJson, ofJson, hmembers, Entries.ofList_of_nodup hnodup, normal]
  | @fallbacks d objects _ ih =>
    have hitems : ofJsonItems (objectsJson objects) = (normalObjects objects).map nested := by
      rw [objectsJson_eq_map, ofJsonItems_eq_map, normalObjects_eq_map, List.map_map, List.map_map]
      exact List.map_congr_left fun es hes => ih es hes
    rw [toJson, ofJson, hitems, ofItems_eq_gathered, gathered_nested, normal]
  | @list d items _ ih =>
    have hitems : ofJsonItems (itemsJson items) = normalItems items := by
      rw [itemsJson_eq_map, ofJsonItems_eq_map, normalItems_eq_map, List.map_map]
      exact List.map_congr_left fun v hv => ih v hv
    rw [toJson, ofJson, hitems, ofItems_eq_gathered, normal]
  | boolean b => rfl
  | null => rfl

/-! ## What has been read -/

/-- What is read is nested as deep as the JSON, and no object has a key twice. -/
theorem within_ofJson {d : Nat} {j : Json} (h : j.Within d) : (ofJson j).Within d := by
  induction h with
  | null => exact .null
  | boolean b => exact .boolean b
  | integer => exact .number _
  | double => exact .number _
  | string s => exact .scalar s
  | @array d items _ ih =>
    have hitems : ∀ v ∈ items.map ofJson, v.Within d := List.forall_mem_map.2 ih
    rw [ofJson, ofJsonItems_eq_map, ofItems_eq_gathered]
    rcases gathered_cases (items.map ofJson) with ⟨objects, hobjects, heq⟩ | ⟨-, heq⟩
    · rw [heq]
      rw [hobjects] at hitems
      exact .fallbacks fun es hes => hitems _ (List.mem_map_of_mem hes)
    · rw [heq]
      exact .list hitems
  | @object d members _ ih =>
    rw [ofJson, ofJsonMembers_eq_map]
    refine .nested (Entries.nodup_keys_ofList _) fun e he => ?_
    obtain ⟨f, hf, heq⟩ := List.mem_map.1 (Entries.mem_of_mem_ofList he)
    rw [← heq]
    exact ih f hf

theorem equalAll_normal {items : List Value} (h : ∀ v ∈ items, v.normal.Equal v) :
    EqualAll (items.map normal) items := by
  induction items with
  | nil => exact .nil
  | cons v items ih =>
    obtain ⟨hv, hrest⟩ := List.forall_mem_cons.1 h
    exact .cons hv (ih hrest)

theorem equal_normalEntries {entries : List (String × Value)}
    (h : ∀ e ∈ entries, e.2.normal.Equal e.2) : Object.Equal (normalEntries entries) entries := by
  have hmap : Object.Equal (entries.map fun e => (e.1, e.2.normal)) (entries.map id) :=
    Object.equal_map fun e he => ⟨rfl, h e he⟩
  rwa [List.map_id, ← normalEntries_eq_map] at hmap

theorem equalAll_normalObjects {objects : List (List (String × Value))}
    (h : ∀ es ∈ objects, (nested es).normal.Equal (nested es)) :
    Object.EqualAll (normalObjects objects) objects := by
  induction objects with
  | nil => exact .nil
  | cons es objects ih =>
    obtain ⟨hes, hrest⟩ := List.forall_mem_cons.1 h
    cases hes with
    | nested hequal => exact .cons hequal (ih hrest)

theorem equal_gathered {items : List Value} (h : ∀ v ∈ items, v.normal.Equal v) :
    (gathered items).normal.Equal (gathered items) := by
  rcases gathered_cases items with ⟨objects, rfl, heq⟩ | ⟨hall, heq⟩
  · rw [heq, normal]
    exact .fallbacks (equalAll_normalObjects fun es hes => h _ (List.mem_map_of_mem hes))
  · have hnormal : (items.map normal).all (fun v => v.nested?.isSome) = false := by
      rw [List.all_map, ← hall]
      exact congrArg items.all (funext isSome_nested?_normal)
    have hkeep : gathered (items.map normal) = .list (items.map normal) := by
      rw [gathered, hnormal]
      rfl
    rw [heq, normal, normalItems_eq_map, hkeep]
    exact .list (equalAll_normal h)

/-- What has been read is normal, but for the sign of zero. -/
theorem normal_equal {d : Nat} {j : Json} (h : j.Within d) : (ofJson j).normal.Equal (ofJson j) := by
  have hnumber : ∀ n : Double, n.isFinite = true → (number n).normal.Equal (number n) := by
    intro n hn
    rw [normal, if_pos hn]
    exact .number (Double.unsignedZero_equal hn)
  induction h with
  | null => exact .null
  | boolean b => exact .boolean b
  | integer hleast hgreatest => exact hnumber _ (Double.isFinite_ofInt hleast hgreatest)
  | double hfinite => exact hnumber _ hfinite
  | string s => exact .scalar s
  | @array d items _ ih =>
    rw [ofJson, ofJsonItems_eq_map, ofItems_eq_gathered]
    exact equal_gathered (List.forall_mem_map.2 ih)
  | @object d members _ ih =>
    rw [ofJson, ofJsonMembers_eq_map]
    refine .nested (equal_normalEntries fun e he => ?_)
    obtain ⟨f, hf, heq⟩ := List.mem_map.1 (Entries.mem_of_mem_ofList he)
    rw [← heq]
    exact ih f hf

theorem parse_toJson {v : Value} (h : v.Within 127) :
    parse v.toJson.compact = .ok v.normal ∧ parse v.toJson.pretty = .ok v.normal := by
  have hwithin : v.toJson.Within Json.depthLimit := h.toJson
  rw [parse, parse, Json.parse_compact hwithin, Json.parse_pretty hwithin, Except.map,
    ofJson_toJson h]
  exact ⟨rfl, rfl⟩

/-- **Style values survive JSON.**  A value with at most 127 objects and lists in one another is read
back in its normal form, from its compact text and from its pretty one, which is also what a module
holds between its opening and its ending.  Texts and the order of keys are kept, normal forms are
normal, and what has been read from any JSON text is written and read again without a change. -/
theorem json_roundTrip :
    (∀ v : Value, v.Within 127 →
      parse v.toJson.compact = .ok v.normal ∧ parse v.toJson.pretty = .ok v.normal) ∧
    (∀ styles : Object, (nested styles).Within 127 → ∃ body,
      moduleText styles = moduleOpening ++ body ++ moduleEnding ∧
        parse body = .ok (.nested (normalEntries styles))) ∧
    (∀ text : String, (scalar text).normal = .scalar text) ∧
    (∀ entries : Object, Entries.keys (normalEntries entries) = entries.keys) ∧
    (∀ v : Value, v.normal.normal = v.normal) ∧
    (∀ (text : String) (v : Value), parse text = .ok v → ∃ w : Value,
      parse v.toJson.compact = .ok w ∧ parse v.toJson.pretty = .ok w ∧ w.Equal v) := by
  refine ⟨fun v h => parse_toJson h, fun styles h => ⟨styles.toJson.pretty, rfl, (parse_toJson h).2⟩,
    fun _ => rfl, keys_normalEntries, normal_normal, fun text v hparse => ?_⟩
  obtain ⟨j, hj, rfl⟩ : ∃ j, Json.parse text = .ok j ∧ ofJson j = v := by
    rw [parse] at hparse
    cases hread : Json.parse text with
    | error e => rw [hread] at hparse; cases hparse
    | ok j => rw [hread] at hparse; exact ⟨j, rfl, Except.ok.inj hparse⟩
  have hwithin : j.Within 127 := Json.within_of_parse hj
  obtain ⟨hcompact, hpretty⟩ := parse_toJson (within_ofJson hwithin)
  exact ⟨_, hcompact, hpretty, normal_equal hwithin⟩

/-- A list of objects, a number that is none, keys with a line feed and a quotation mark, and an array
of two kinds. -/
theorem json_roundTrip_mixed :
    parse (nested [("a\n", .list [.nested []]), ("\"b", .number .nan)]).toJson.compact =
        .ok (.nested [("a\n", .fallbacks [[]]), ("\"b", .null)]) ∧
      parse "[null, []]" = .ok (.list [.null, .fallbacks []]) ∧
      ∃ w : Value, parse (list [.null, .fallbacks []]).toJson.pretty = .ok w ∧
        w.Equal (.list [.null, .fallbacks []]) := by
  have hwithin : (nested [("a\n", .list [.nested []]), ("\"b", .number .nan)]).Within 127 := by
    have hlist : (list [nested []]).Within 126 :=
      .list (List.forall_mem_singleton.2 (.nested List.nodup_nil nofun))
    exact .nested (by decide) (List.forall_mem_cons.2 ⟨hlist, List.forall_mem_singleton.2 (.number _)⟩)
  have hparse : parse "[null, []]" = .ok (.list [.null, .fallbacks []]) := by cbv
  obtain ⟨hread, -, -, -, -, hagain⟩ := json_roundTrip
  obtain ⟨w, -, hpretty, hequal⟩ := hagain _ _ hparse
  exact ⟨(hread _ hwithin).1, hparse, w, hpretty, hequal⟩

end Value

end Style

end Restyle
