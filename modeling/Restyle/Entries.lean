/-!
# Ordered entries

The entries of an object stand in the order in which their keys were first
given.  Giving a value to a key that is there replaces the value where it
stands.
-/

namespace Restyle

/-- Keys with their values, in order. -/
abbrev Entries (α : Type) : Type := List (String × α)

namespace Entries

variable {α : Type}

def get? : Entries α → String → Option α
  | [], _ => none
  | (k, v) :: rest, key => if k = key then some v else get? rest key

/-- Gives a value to a key: in its place if it is there, else behind all others. -/
def insert : Entries α → String → α → Entries α
  | [], key, value => [(key, value)]
  | (k, v) :: rest, key, value =>
    if k = key then (k, value) :: rest else (k, v) :: insert rest key value

def keys (es : Entries α) : List String :=
  es.map Prod.fst

/-- Entries given one after the other. -/
def ofList (es : List (String × α)) : Entries α :=
  es.foldl (fun acc e => insert acc e.1 e.2) []

/-- Things under their indices, counted from `i`. -/
def indexed {β : Type} (f : β → α) (i : Nat) : List β → Entries α
  | [] => []
  | b :: bs => (toString i, f b) :: indexed f (i + 1) bs

@[simp] theorem get?_nil (key : String) : get? ([] : Entries α) key = none := rfl

theorem get?_insert_self (es : Entries α) (key : String) (value : α) :
    (es.insert key value).get? key = some value := by
  induction es with
  | nil => simp [insert, get?]
  | cons e rest ih =>
    obtain ⟨k, v⟩ := e
    by_cases h : k = key <;> simp [insert, get?, h, ih]

theorem get?_insert_of_ne (es : Entries α) {key other : String} (value : α) (h : other ≠ key) :
    (es.insert key value).get? other = es.get? other := by
  induction es with
  | nil => simp [insert, get?, Ne.symm h]
  | cons e rest ih =>
    obtain ⟨k, v⟩ := e
    by_cases hk : k = key
    · subst hk; simp [insert, get?, Ne.symm h]
    · simp [insert, get?, hk, ih]

theorem keys_insert (es : Entries α) (key : String) (value : α) :
    (es.insert key value).keys = if key ∈ es.keys then es.keys else es.keys ++ [key] := by
  induction es with
  | nil => simp [insert, keys]
  | cons e rest ih =>
    obtain ⟨k, v⟩ := e
    by_cases hk : k = key
    · simp [insert, keys, hk]
    · simp only [keys] at ih
      by_cases hmem : key ∈ rest.map Prod.fst <;>
        simp [insert, hk, keys, ih, hmem, Ne.symm hk]

end Entries

end Restyle
