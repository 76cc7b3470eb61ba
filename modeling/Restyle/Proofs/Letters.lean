import Restyle.Text.Blank

/-!
# ASCII letters and digits

Letters and digits are ranges of codes.  What holds of a whole range is checked character by character
(`forall_isLower`, `forall_isUpper`, `forall_isDigit`).
-/

namespace Restyle.Text

section

variable {c : Char}

theorem isLower_iff : c.isLower = true ↔ 97 ≤ c.toNat ∧ c.toNat < 97 + 26 := by
  change (decide (97 ≤ c.val) && decide (c.val ≤ 122)) = true ↔ _
  rw [Bool.and_eq_true, decide_eq_true_eq, decide_eq_true_eq, ← Nat.le_iff_lt_add_one]
  exact Iff.rfl

theorem isUpper_iff : c.isUpper = true ↔ 65 ≤ c.toNat ∧ c.toNat < 65 + 26 := by
  change decide (65 ≤ c.val ∧ c.val ≤ 90) = true ↔ _
  rw [decide_eq_true_eq, ← Nat.le_iff_lt_add_one]
  exact Iff.rfl

theorem isDigit_iff : c.isDigit = true ↔ 48 ≤ c.toNat ∧ c.toNat < 48 + 10 := by
  change (decide (48 ≤ c.val) && decide (c.val ≤ 57)) = true ↔ _
  rw [Bool.and_eq_true, decide_eq_true_eq, decide_eq_true_eq, ← Nat.le_iff_lt_add_one]
  exact Iff.rfl

theorem isAlpha_iff : c.isAlpha = true ↔ c.isUpper = true ∨ c.isLower = true :=
  Bool.or_eq_true_iff

theorem isAlphanum_iff : c.isAlphanum = true ↔ c.isAlpha = true ∨ c.isDigit = true :=
  Bool.or_eq_true_iff

theorem isAlpha_of_isLower (h : c.isLower = true) : c.isAlpha = true :=
  isAlpha_iff.2 (.inr h)

/-- Letters and digits can be seen. -/
theorem graphic_of_isAlphanum (h : c.isAlphanum = true) : 0x21 ≤ c.toNat ∧ c.toNat ≤ 0x7E := by
  rw [isAlphanum_iff, isAlpha_iff, isUpper_iff, isLower_iff, isDigit_iff] at h
  omega

theorem ascii_of_isAlphanum (h : c.isAlphanum = true) : c.toNat < 0x80 := by
  have hgraphic := graphic_of_isAlphanum h
  omega

theorem isDigit_of_isAlpha (h : c.isAlpha = true) : c.isDigit = false := by
  rw [isAlpha_iff, isUpper_iff, isLower_iff] at h
  rw [Bool.eq_false_iff]
  intro hdigit
  rw [isDigit_iff] at hdigit
  omega

/-- What can be seen is not white space. -/
theorem isBlank_of_graphic (h : 0x21 ≤ c.toNat ∧ c.toNat ≤ 0x7E) : isBlank c = false := by
  simp only [isBlank, Bool.or_eq_false_iff, Bool.and_eq_false_iff, decide_eq_false_iff_not,
    beq_eq_false_iff_ne]
  omega

end

/-! ## Ranges -/

section

variable {p : Char → Bool} {c : Char}

/-- What holds of all characters of a range is checked one by one. -/
theorem forall_range {first count : Nat} (h : ∀ n < count, p (Char.ofNat (first + n)) = true)
    (hc : first ≤ c.toNat ∧ c.toNat < first + count) : p c = true := by
  have hchar := h (c.toNat - first) (by omega)
  rwa [Nat.add_sub_cancel' hc.1, Char.ofNat_toNat] at hchar

theorem forall_isLower (h : ∀ n < 26, p (Char.ofNat (97 + n)) = true) (hc : c.isLower = true) :
    p c = true :=
  forall_range h (isLower_iff.1 hc)

theorem forall_isUpper (h : ∀ n < 26, p (Char.ofNat (65 + n)) = true) (hc : c.isUpper = true) :
    p c = true :=
  forall_range h (isUpper_iff.1 hc)

theorem forall_isDigit (h : ∀ n < 10, p (Char.ofNat (48 + n)) = true) (hc : c.isDigit = true) :
    p c = true :=
  forall_range h (isDigit_iff.1 hc)

end

/-! ## Both cases -/

section

variable {c : Char}

theorem toLower_of_isLower (h : c.isLower = true) : c.toLower = c :=
  beq_iff_eq.1 (forall_isLower (p := fun c => c.toLower == c) (by decide) h)

theorem isUpper_toUpper (h : c.isLower = true) : c.toUpper.isUpper = true :=
  forall_isLower (p := fun c => c.toUpper.isUpper) (by decide) h

theorem toLower_toUpper (h : c.isLower = true) : c.toUpper.toLower = c :=
  beq_iff_eq.1 (forall_isLower (p := fun c => c.toUpper.toLower == c) (by decide) h)

theorem isLower_toLower (h : c.isUpper = true) : c.toLower.isLower = true :=
  forall_isUpper (p := fun c => c.toLower.isLower) (by decide) h

theorem toUpper_toLower (h : c.isUpper = true) : c.toLower.toUpper = c :=
  beq_iff_eq.1 (forall_isUpper (p := fun c => c.toLower.toUpper == c) (by decide) h)

theorem toLower_of_isUpper_eq_false (h : c.isUpper = false) : c.toLower = c :=
  dif_neg fun hrange => Bool.eq_false_iff.1 h (decide_eq_true hrange)

/-- There are no capitals in lower case. -/
theorem isUpper_toLower (c : Char) : c.toLower.isUpper = false := by
  cases h : c.isUpper with
  | false => rw [toLower_of_isUpper_eq_false h, h]
  | true =>
    rw [Bool.eq_false_iff]
    intro hupper
    have hlower := isLower_toLower h
    rw [isUpper_iff] at hupper
    rw [isLower_iff] at hlower
    omega

/-- What is a letter in lower case is one. -/
theorem isAlpha_of_toLower (h : c.toLower.isAlpha = true) : c.isAlpha = true := by
  cases hupper : c.isUpper with
  | false => rwa [toLower_of_isUpper_eq_false hupper] at h
  | true => exact isAlpha_iff.2 (.inl hupper)

end

end Restyle.Text
