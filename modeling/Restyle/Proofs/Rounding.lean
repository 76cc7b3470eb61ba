import Restyle.Number.Shortest
import Mathlib.Tactic.Ring

/-!
# Shortest digits read back

The double nearest to the exact expansion of a finite magnitude is that magnitude, and moving digits
into the exponent does not change which double is nearest.  What `search` finds reads back by its own
test, so the digits that `shortest` gives for a code always read back as that code.
-/

namespace Restyle

namespace Double

/-! ## Codes -/

section

variable (code : Nat)

theorem scale_add_significand : scale code * 2 ^ 52 + significand code = code := by
  simp only [significand, scale, Nat.pow_eq]
  omega

theorem significand_lt : significand code < 2 ^ 53 := by
  simp only [significand, scale, Nat.pow_eq]
  omega

variable {code}

theorem le_significand (h : 0 < scale code) : 2 ^ 52 ≤ significand code := by
  simp only [significand, scale, Nat.pow_eq] at h ⊢
  omega

theorem scale_le (h : code < magnitudes) : scale code ≤ 2045 := by
  simp only [scale, Nat.pow_eq]
  unfold magnitudes at h
  omega

theorem significand_pos (h : code ≠ 0) : 0 < significand code := by
  simp only [significand, scale, Nat.pow_eq]
  omega

theorem units_eq (code : Nat) : units code = significand code * 2 ^ scale code := by
  rw [units, Nat.pow_eq]

/-- The logarithm of a magnitude in units gives the scale back. -/
theorem log2_units (code : Nat) : (units code).log2 + 1 - 53 = scale code := by
  have hlt := significand_lt code
  rw [units_eq]
  rcases Nat.eq_zero_or_pos (scale code) with hzero | hpos
  · rw [hzero, Nat.pow_zero, Nat.mul_one]
    rcases Nat.eq_zero_or_pos (significand code) with hnil | hsome
    · rw [hnil, Nat.log2_zero]
    · have hlog := (Nat.log2_lt hsome.ne').2 hlt
      omega
  · have hle := le_significand hpos
    have htwo : 0 < 2 ^ scale code := Nat.two_pow_pos _
    have hne : significand code * 2 ^ scale code ≠ 0 :=
      (Nat.mul_pos (lt_of_lt_of_le (by norm_num) hle) htwo).ne'
    have hlog : (significand code * 2 ^ scale code).log2 = 52 + scale code := by
      rw [Nat.log2_eq_iff hne, show 52 + scale code + 1 = 53 + scale code by ring, pow_add, pow_add]
      exact ⟨Nat.mul_le_mul_right _ hle, Nat.mul_lt_mul_of_pos_right hlt htwo⟩
    rw [hlog]
    omega

end

/-! ## Rounding -/

theorem divEven_mul {q d : Nat} (hd : 0 < d) : divEven (q * d) d = q := by
  unfold divEven
  rw [Nat.mul_div_cancel q hd, Nat.mul_mod_left]
  exact if_pos hd

theorem divEven_mul_mul {c : Nat} (hc : 0 < c) (n d : Nat) : divEven (n * c) (d * c) = divEven n d := by
  unfold divEven
  have hscale : ∀ a b : Nat, a * c < b * c ↔ a < b := fun a b => Nat.mul_lt_mul_right hc
  simp only [Nat.mul_div_mul_right n d hc, Nat.mul_mod_mul_right, ← Nat.mul_assoc, hscale]

/-- Every magnitude is the nearest one to itself. -/
theorem nearestCode_units (code : Nat) : nearestCode (units code) 1 = code := by
  unfold nearestCode
  dsimp only
  rw [Nat.div_one, log2_units, Nat.one_mul, Nat.pow_eq, Nat.pow_eq, units_eq,
    divEven_mul (Nat.two_pow_pos _), scale_add_significand]

theorem nearestCode_mul_mul {c : Nat} (hc : 0 < c) (n d : Nat) :
    nearestCode (n * c) (d * c) = nearestCode n d := by
  unfold nearestCode
  dsimp only
  rw [Nat.mul_div_mul_right n d hc, Nat.mul_right_comm, divEven_mul_mul hc]

/-- Equal quotients have the same nearest code. -/
theorem nearestCode_congr {n d m e : Nat} (hd : 0 < d) (he : 0 < e) (h : n * e = m * d) :
    nearestCode n d = nearestCode m e := by
  rw [← nearestCode_mul_mul he, h, Nat.mul_comm d, nearestCode_mul_mul hd]

theorem nearest_congr (negative : Bool) {n d m e : Nat} (hd : 0 < d) (he : 0 < e)
    (h : n * e = m * d) : nearest negative n d = nearest negative m e := by
  unfold nearest
  rw [nearestCode_congr hd he (by rw [Nat.mul_right_comm, h, Nat.mul_right_comm])]

theorem ofCode_of_lt (negative : Bool) {code : Nat} (h : code < magnitudes) :
    ofCode negative code = .finite negative ⟨code, h⟩ :=
  dif_pos h

theorem ofCode_inj {negative : Bool} {c code : Nat} (h : code < magnitudes)
    (heq : ofCode negative c = ofCode negative code) : c = code := by
  rw [ofCode_of_lt negative h] at heq
  unfold ofCode at heq
  split at heq
  · exact congrArg Fin.val (Double.finite.inj heq).2
  · cases heq

end Double

namespace Number

open Double (nearest nearestCode ofCode magnitudes unitExponent)

/-! ## Counting digits -/

theorem lt_pow_digitCount (n : Nat) : n < 10 ^ digitCount n := by
  unfold digitCount
  split
  · next h => rw [h]; decide
  · exact (Nat.length_toDigits_le_iff (by decide) Nat.length_toDigits_pos).1 (Nat.le_refl _)

theorem digitCount_le_iff {n k : Nat} : digitCount n ≤ k ↔ n < 10 ^ k := by
  refine ⟨fun h => (lt_pow_digitCount n).trans_le (Nat.pow_le_pow_right (by decide) h), fun h => ?_⟩
  unfold digitCount
  split
  · exact Nat.zero_le k
  · next hn =>
    rcases Nat.eq_zero_or_pos k with hk | hk
    · rw [hk] at h
      omega
    · exact (Nat.length_toDigits_le_iff (by decide) hk).2 h

/-- Every zero behind the digits of a number counts. -/
theorem digitCount_mul_pow {n : Nat} (hn : n ≠ 0) (j : Nat) :
    digitCount (n * 10 ^ j) = digitCount n + j := by
  have hten : 0 < 10 ^ j := Nat.pow_pos (by decide)
  refine eq_of_forall_ge_iff fun k => ?_
  rw [digitCount_le_iff]
  rcases Nat.lt_or_ge k j with hlt | hge
  · have hpow : 10 ^ k < 10 ^ j := Nat.pow_lt_pow_right (by decide) hlt
    have hle : 10 ^ j ≤ n * 10 ^ j := Nat.le_mul_of_pos_left _ (Nat.pos_of_ne_zero hn)
    omega
  · obtain ⟨i, rfl⟩ := Nat.exists_eq_add_of_le' hge
    rw [pow_add, Nat.mul_lt_mul_right hten, ← digitCount_le_iff]
    omega

/-! ## Decimal numbers -/

namespace Decimal

section

variable (negative : Bool) (digits : Nat) (exponent : Int)

/-- The sign does not matter for which magnitude is nearest. -/
theorem exists_code : ∃ c, ∀ negative, toDouble ⟨negative, digits, exponent⟩ = ofCode negative c := by
  have hinfinite : ∀ negative, Double.infinite negative = ofCode negative magnitudes := fun _ => rfl
  unfold toDouble nearest
  simp only [hinfinite]
  by_cases hsmall : (digits = 0 || digitCount digits + exponent < -330) = true
  · exact ⟨0, fun _ => if_pos hsmall⟩
  simp only [if_neg hsmall]
  by_cases hlarge : 310 < digitCount digits + exponent
  · exact ⟨magnitudes, fun _ => if_pos hlarge⟩
  simp only [if_neg hlarge]
  by_cases hwhole : 0 ≤ exponent
  · exact ⟨_, fun _ => if_pos hwhole⟩
  · exact ⟨_, fun _ => if_neg hwhole⟩

theorem toDouble_zero : toDouble ⟨negative, 0, exponent⟩ = ofCode negative 0 := by
  unfold toDouble
  exact if_pos (by simp)

variable {digits exponent}

/-- A decimal number within the range of finite magnitudes is rounded as a quotient. -/
theorem toDouble_eq_nearest (hdigits : digits ≠ 0) (hleast : -330 ≤ digitCount digits + exponent)
    (hgreatest : digitCount digits + exponent ≤ 310) :
    toDouble ⟨negative, digits, exponent⟩ =
      nearest negative (digits * 10 ^ exponent.toNat) (10 ^ (-exponent).toNat) := by
  unfold toDouble
  dsimp only
  rw [if_neg (by simp; omega), if_neg (by omega), Nat.pow_eq]
  split
  · next h =>
    rw [show exponent.toNat = exponent.natAbs by omega, show (-exponent).toNat = 0 by omega,
      Nat.pow_zero]
  · next h =>
    rw [show exponent.toNat = 0 by omega, show (-exponent).toNat = exponent.natAbs by omega,
      Nat.pow_zero, Nat.mul_one]

/-- Zeros may be moved from the digits into the exponent. -/
theorem toDouble_mul_pow (digits : Nat) (exponent : Int) (j : Nat) :
    toDouble ⟨negative, digits * 10 ^ j, exponent⟩ = toDouble ⟨negative, digits, exponent + j⟩ := by
  rcases Nat.eq_zero_or_pos digits with rfl | hpos
  · rw [Nat.zero_mul, toDouble_zero, toDouble_zero]
  have hten : ∀ k, 0 < 10 ^ k := fun k => Nat.pow_pos (by decide)
  have hne : digits ≠ 0 := hpos.ne'
  have hne' : digits * 10 ^ j ≠ 0 := (Nat.mul_pos hpos (hten j)).ne'
  have hcount := digitCount_mul_pow hne j
  rcases lt_or_ge (digitCount digits + (exponent + j)) (-330) with hsmall | hleast
  · unfold toDouble
    dsimp only
    rw [hcount, if_pos (by simp; omega), if_pos (by simp; omega)]
  rcases lt_or_ge 310 (digitCount digits + (exponent + j)) with hlarge | hgreatest
  · unfold toDouble
    dsimp only
    rw [hcount, if_neg (by simp [hne]; omega), if_pos (by omega), if_neg (by simp [hne]; omega),
      if_pos hlarge]
  rw [toDouble_eq_nearest negative hne' (by omega) (by omega),
    toDouble_eq_nearest negative hne hleast hgreatest]
  refine Double.nearest_congr negative (hten _) (hten _) ?_
  rw [Nat.mul_assoc, Nat.mul_assoc, Nat.mul_assoc, ← pow_add, ← pow_add, ← pow_add]
  congr 2
  omega

end

end Decimal

/-! ## The exact expansion -/

namespace Digits

/-- The double that digits read back as. -/
def toDouble (negative : Bool) (d : Digits) : Double :=
  Decimal.toDouble ⟨negative, d.digits, d.exponent⟩

theorem readsAs_iff {code : Nat} (h : code < magnitudes) {d : Digits} :
    d.readsAs code = true ↔ ∀ negative, d.toDouble negative = ofCode negative code := by
  refine ⟨fun hread negative => ?_, fun hread => beq_iff_eq.2 (hread false)⟩
  obtain ⟨c, hc⟩ := Decimal.exists_code d.digits d.exponent
  have heq : ofCode false c = ofCode false code := (hc false).symm.trans (beq_iff_eq.1 hread)
  rw [toDouble, hc, Double.ofCode_inj h heq]

/-- The exact expansion is a whole number or has as many decimals as the unit leaves. -/
theorem exact_cases (code : Nat) :
    (∃ k, Double.scale code = unitExponent + k ∧
      exact code = ⟨Double.significand code * 2 ^ k, 0⟩) ∨
    ∃ k : Nat, Double.scale code + k = unitExponent ∧
      exact code = ⟨Double.significand code * 5 ^ k, -(k : Int)⟩ := by
  unfold exact
  by_cases he : unitExponent ≤ Double.scale code
  · obtain ⟨k, hk⟩ := Nat.exists_eq_add_of_le he
    refine .inl ⟨k, hk, ?_⟩
    simp only [if_pos he, Nat.pow_eq]
    rw [hk, Nat.add_sub_cancel_left]
  · obtain ⟨k, hk⟩ := Nat.exists_eq_add_of_le (Nat.le_of_not_le he)
    refine .inr ⟨k, hk.symm, ?_⟩
    simp only [if_neg he, Nat.pow_eq]
    rw [hk, Nat.add_sub_cancel_left]
    congr 1
    omega

section

variable {code : Nat} (hne : code ≠ 0)

include hne

theorem exact_digits_ne_zero : (exact code).digits ≠ 0 := by
  have hpos := Double.significand_pos hne
  rcases exact_cases code with ⟨k, -, heq⟩ | ⟨k, -, heq⟩
  · rw [heq]; exact (Nat.mul_pos hpos (Nat.pow_pos (by decide))).ne'
  · rw [heq]; exact (Nat.mul_pos hpos (Nat.pow_pos (by decide))).ne'

theorem le_top_exact : -330 ≤ digitCount (exact code).digits + (exact code).exponent := by
  have hpos := Double.significand_pos hne
  rcases exact_cases code with ⟨k, -, heq⟩ | ⟨k, hk, heq⟩
  · rw [heq]
    dsimp only
    omega
  · have hleast : k < digitCount (Double.significand code * 5 ^ k) + 331 := by
      refine (Nat.pow_lt_pow_iff_right (by decide : 1 < 10)).1 ?_
      calc 10 ^ k
        _ = 5 ^ k * 2 ^ k := by rw [← Nat.mul_pow]
        _ ≤ Double.significand code * 5 ^ k * 2 ^ unitExponent :=
          Nat.mul_le_mul (Nat.le_mul_of_pos_left _ hpos)
            (Nat.pow_le_pow_right (by decide) (Nat.le.intro (Nat.add_comm _ _ ▸ hk)))
        _ < 10 ^ digitCount (Double.significand code * 5 ^ k) * 10 ^ 331 :=
          Nat.mul_lt_mul_of_lt_of_le (lt_pow_digitCount _) (by decide +kernel)
            (by decide +kernel)
        _ = 10 ^ (digitCount (Double.significand code * 5 ^ k) + 331) := (pow_add _ _ _).symm
    rw [heq]
    dsimp only
    omega

omit hne

variable (h : code < magnitudes)

include h

theorem top_exact_le : digitCount (exact code).digits + (exact code).exponent ≤ 310 := by
  have hlt := Double.significand_lt code
  have hscale := Double.scale_le h
  have hunit : unitExponent = 1074 := rfl
  rcases exact_cases code with ⟨k, hk, heq⟩ | ⟨k, -, heq⟩
  · have hgreatest : digitCount (Double.significand code * 2 ^ k) ≤ 310 := by
      refine digitCount_le_iff.2 ?_
      calc Double.significand code * 2 ^ k
        _ ≤ 2 ^ 53 * 2 ^ 971 := Nat.mul_le_mul hlt.le (Nat.pow_le_pow_right (by decide) (by omega))
        _ < 10 ^ 310 := by decide +kernel
    rw [heq]
    dsimp only
    omega
  · have hgreatest : digitCount (Double.significand code * 5 ^ k) ≤ 16 + k := by
      refine digitCount_le_iff.2 ?_
      rw [pow_add]
      exact Nat.mul_lt_mul_of_lt_of_le (hlt.trans (by decide +kernel))
        (Nat.pow_le_pow_left (by decide) k) (Nat.pow_pos (by decide))
    rw [heq]
    dsimp only
    omega

/-- The exact expansion reads back. -/
theorem readsAs_exact : (exact code).readsAs code = true := by
  rw [readsAs_iff h]
  intro negative
  rcases Nat.eq_zero_or_pos code with rfl | hpos
  · have hzero : Double.significand 0 = 0 := by decide
    rcases exact_cases 0 with ⟨k, -, heq⟩ | ⟨k, -, heq⟩
    · rw [toDouble, heq, hzero, Nat.zero_mul, Decimal.toDouble_zero]
    · rw [toDouble, heq, hzero, Nat.zero_mul, Decimal.toDouble_zero]
  have hten : ∀ k, 0 < 10 ^ k := fun k => Nat.pow_pos (by decide)
  have hunits : (exact code).digits * 10 ^ (exact code).exponent.toNat *
      Nat.pow 2 unitExponent * 1 =
        Double.units code * 10 ^ (-(exact code).exponent).toNat := by
    rw [Double.units_eq, Nat.pow_eq, Nat.mul_one]
    rcases exact_cases code with ⟨k, hk, heq⟩ | ⟨k, hk, heq⟩
    · rw [heq, hk, pow_add]
      simp only [Int.toNat_zero, Int.neg_zero, pow_zero]
      ring
    · rw [heq, ← hk, pow_add, show (10 : Nat) = 5 * 2 from rfl]
      simp only [Int.neg_neg, Int.toNat_natCast, Int.toNat_neg_natCast, pow_zero, Nat.mul_pow]
      ring
  rw [toDouble, Decimal.toDouble_eq_nearest negative (exact_digits_ne_zero hpos.ne')
    (le_top_exact hpos.ne') (top_exact_le h), nearest,
    Double.nearestCode_congr (hten _) Nat.one_pos hunits, Double.nearestCode_units]

end

/-! ## The search -/

variable {tie : Tie} {code : Nat} {d : Digits}

theorem readsAs_of_onGrid? {cut : Nat} {found : Digits} (h : d.onGrid? tie code cut = some found) :
    found.readsAs code = true := by
  unfold onGrid? at h
  dsimp only at h
  split at h
  · next hlow hhigh =>
    split at h
    · cases h; exact hlow
    split at h
    · cases h; exact hhigh
    split at h
    · cases h; exact hhigh
    · split at h <;> cases h
      · exact hlow
      · exact hhigh
  · next hlow _ => cases h; exact hlow
  · next _ hhigh => cases h; exact hhigh
  · cases h

theorem readsAs_search (h : d.readsAs code = true) (cut : Nat) :
    (search tie code d cut).readsAs code = true := by
  induction cut with
  | zero => exact h
  | succ cut ih =>
    rw [search]
    split
    · next found hfound => exact readsAs_of_onGrid? hfound
    · exact ih

theorem toDouble_normalize (negative : Bool) (digits : Nat) (exponent : Int) :
    (normalize digits exponent).toDouble negative = toDouble negative ⟨digits, exponent⟩ := by
  fun_induction normalize digits exponent with
  | case1 digits exponent h ih =>
    have hshift := Decimal.toDouble_mul_pow negative (digits / 10) exponent 1
    rw [pow_one, Nat.div_mul_cancel (Nat.dvd_of_mod_eq_zero h.2)] at hshift
    exact ih.trans hshift.symm
  | case2 digits exponent h => rfl

end Digits

/-- The shortest digits of a finite magnitude read back as that magnitude. -/
theorem toDouble_shortest (tie : Tie) {code : Nat} (h : code < magnitudes) (negative : Bool) :
    (shortest tie code).toDouble negative = ofCode negative code := by
  unfold shortest
  dsimp only
  rw [Digits.toDouble_normalize]
  exact (Digits.readsAs_iff h).1 (Digits.readsAs_search (Digits.readsAs_exact h) _) negative

end Number

end Restyle
