import Restyle.Entries

/-!
# Laws of ordered entries

What giving a value to a key does to the other entries.  A new key goes to the end (`insert_of_notMem`);
a key that is there keeps its place and gives its old value up for the new one (`insert_perm`).
-/

namespace Restyle.Entries

variable {α : Type}

theorem get?_eq_none_iff (es : Entries α) (key : String) : es.get? key = none ↔ key ∉ es.keys := by
  induction es with
  | nil => simp [keys]
  | cons e es ih =>
    obtain ⟨k, v⟩ := e
    by_cases h : k = key
    · simp [get?, keys, h]
    · simpa [get?, keys, h, Ne.symm h] using ih

theorem get?_append (es fs : Entries α) (key : String) :
    get? (es ++ fs) key = (es.get? key).or (fs.get? key) := by
  induction es with
  | nil => simp
  | cons e es ih =>
    obtain ⟨k, v⟩ := e
    by_cases h : k = key <;> simp [get?, h, ih]

theorem mem_of_get? {es : Entries α} {key : String} {value : α} (h : es.get? key = some value) :
    (key, value) ∈ es := by
  induction es with
  | nil => cases h
  | cons e es ih =>
    obtain ⟨k, v⟩ := e
    rw [get?] at h
    split at h
    · next hkey =>
      rw [hkey, Option.some.inj h]
      exact List.mem_cons_self
    · exact List.mem_cons_of_mem _ (ih h)

/-- Of two values given to one key the second one counts. -/
theorem insert_insert_self (es : Entries α) (key : String) (value other : α) :
    (es.insert key value).insert key other = es.insert key other := by
  induction es with
  | nil => simp [insert]
  | cons e es ih =>
    obtain ⟨k, v⟩ := e
    by_cases h : k = key <;> simp [insert, h, ih]

theorem insert_of_notMem {es : Entries α} {key : String} (h : key ∉ es.keys) (value : α) :
    es.insert key value = es ++ [(key, value)] := by
  induction es with
  | nil => rfl
  | cons e es ih =>
    obtain ⟨k, v⟩ := e
    simp only [keys, List.map_cons, List.mem_cons, not_or] at h
    rw [insert, if_neg (Ne.symm h.1), ih h.2]
    rfl

/-- Steps that each give a value to a new key put the entries one behind the other. -/
theorem foldl_of_nodup {β : Type} {step : Entries α → β → Entries α} {key : β → String}
    {value : β → α} (hstep : ∀ es b, key b ∉ es.keys → step es b = es ++ [(key b, value b)])
    {es : Entries α} {bs : List β} (h : (es.keys ++ bs.map key).Nodup) :
    bs.foldl step es = es ++ bs.map fun b => (key b, value b) := by
  induction bs generalizing es with
  | nil => rw [List.foldl_nil, List.map_nil, List.append_nil]
  | cons b bs ih =>
    have hnew : key b ∉ es.keys := fun hmem =>
      (List.nodup_append.1 h).2.2 _ hmem _ List.mem_cons_self rfl
    have hrest : ((es ++ [(key b, value b)]).keys ++ bs.map key).Nodup := by
      rwa [keys, List.map_append, List.append_assoc]
    rw [List.foldl_cons, hstep es b hnew, ih hrest, List.append_assoc]
    rfl

/-- Entries under different keys stay as they are given. -/
theorem ofList_of_nodup {es : List (String × α)} (h : (keys es).Nodup) : ofList es = es := by
  have hfold : es.foldl (fun acc e => insert acc e.1 e.2) [] = [] ++ es.map fun e => (e.1, e.2) :=
    foldl_of_nodup (fun acc e he => insert_of_notMem he e.2) h
  rw [ofList, hfold, List.nil_append]
  exact List.map_id es

theorem nodup_keys_insert {es : Entries α} (h : es.keys.Nodup) (key : String) (value : α) :
    (es.insert key value).keys.Nodup := by
  rw [keys_insert]
  split
  · exact h
  · next hkey =>
    refine List.nodup_append.2 ⟨h, List.pairwise_singleton _ _, fun k hk l hl => ?_⟩
    rw [List.mem_singleton.1 hl]
    exact fun heq => hkey (heq ▸ hk)

/-- Giving values to keys one after the other never makes two entries of one key. -/
theorem nodup_keys_ofList (es : List (String × α)) : (ofList es).keys.Nodup := by
  have hfold : ∀ (es : List (String × α)) (acc : Entries α), acc.keys.Nodup →
      (es.foldl (fun acc e => insert acc e.1 e.2) acc).keys.Nodup := by
    intro es
    induction es with
    | nil => exact fun _ h => h
    | cons e es ih => exact fun acc h => ih _ (nodup_keys_insert h e.1 e.2)
  exact hfold es [] List.nodup_nil

theorem mem_of_mem_insert {es : Entries α} {key : String} {value : α} {e : String × α}
    (h : e ∈ es.insert key value) : e = (key, value) ∨ e ∈ es := by
  induction es with
  | nil => exact .inl (List.mem_singleton.1 h)
  | cons f es ih =>
    rw [insert] at h
    split at h
    · next hkey =>
      rcases List.mem_cons.1 h with rfl | h
      · exact .inl (by rw [hkey])
      · exact .inr (List.mem_cons_of_mem _ h)
    · rcases List.mem_cons.1 h with rfl | h
      · exact .inr List.mem_cons_self
      · exact (ih h).imp_right (List.mem_cons_of_mem _)

theorem mem_of_mem_ofList {es : List (String × α)} {e : String × α} (h : e ∈ ofList es) :
    e ∈ es := by
  have hfold : ∀ (es : List (String × α)) (acc : Entries α),
      e ∈ es.foldl (fun acc e => insert acc e.1 e.2) acc → e ∈ acc ∨ e ∈ es := by
    intro es
    induction es with
    | nil => exact fun _ h => .inl h
    | cons f es ih =>
      intro acc h
      rcases ih _ h with h | h
      · rcases mem_of_mem_insert h with rfl | h
        · exact .inr List.mem_cons_self
        · exact .inl h
      · exact .inr (List.mem_cons_of_mem _ h)
  exact (hfold es [] h).resolve_left (List.not_mem_nil)

/-- A key that is there gives its value up for the new one, and nothing else moves. -/
theorem insert_perm {es : Entries α} {key : String} {old : α} (h : es.get? key = some old)
    (value : α) : ((key, old) :: es.insert key value).Perm ((key, value) :: es) := by
  induction es with
  | nil => cases h
  | cons e es ih =>
    obtain ⟨k, v⟩ := e
    by_cases hk : k = key
    · subst hk
      simp only [get?, if_true, Option.some.injEq] at h
      subst h
      rw [insert, if_pos rfl]
      exact List.Perm.swap _ _ _
    · simp only [get?, hk, if_false] at h
      rw [insert, if_neg hk]
      exact (List.Perm.swap _ _ _).trans (((ih h).cons _).trans (List.Perm.swap _ _ _))

/-! ## Entries under other keys -/

/-- The entries under all keys but one. -/
def without (es : Entries α) (key : String) : Entries α :=
  es.filter (·.1 != key)

theorem without_insert_self (es : Entries α) (key : String) (value : α) :
    (es.insert key value).without key = es.without key := by
  induction es with
  | nil => simp [without, insert]
  | cons e es ih =>
    obtain ⟨k, v⟩ := e
    by_cases h : k = key
    · simp [without, insert, h]
    · simpa [without, insert, h] using ih

theorem without_insert_of_ne (es : Entries α) {key other : String} (h : key ≠ other) (value : α) :
    (es.insert key value).without other = (es.without other).insert key value := by
  induction es with
  | nil => simp [without, insert, h]
  | cons e es ih =>
    obtain ⟨k, v⟩ := e
    simp only [without] at ih
    by_cases hk : k = key
    · subst hk
      simp [without, insert, h]
    · by_cases ho : k = other
      · subst ho
        simp [without, insert, hk, ih]
      · simp [without, insert, hk, ho, ih]

theorem get?_without (es : Entries α) {key other : String} (h : key ≠ other) :
    (es.without other).get? key = es.get? key := by
  induction es with
  | nil => rfl
  | cons e es ih =>
    obtain ⟨k, v⟩ := e
    simp only [without] at ih
    by_cases ho : k = other
    · subst ho
      simp [without, get?, Ne.symm h, ih]
    · by_cases hk : k = key
      · simp [without, get?, hk, h]
      · simp [without, get?, hk, ho, ih]

end Restyle.Entries
