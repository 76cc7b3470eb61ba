/-!
# White space

The white space of texts is the Unicode property `White_Space`, a wider class
than the white space of style sheets.  `trim` takes it off both ends of a text.
-/

namespace Restyle.Text

/-- Unicode white space: 25 characters. -/
def isBlank (c : Char) : Bool :=
  let n := c.toNat
  (0x09 ≤ n && n ≤ 0x0D) || n == 0x20 || n == 0x85 || n == 0xA0 || n == 0x1680 ||
    (0x2000 ≤ n && n ≤ 0x200A) || n == 0x2028 || n == 0x2029 || n == 0x202F || n == 0x205F ||
    n == 0x3000

/-- The text without its leading white space. -/
def trimStart (cs : List Char) : List Char :=
  cs.dropWhile isBlank

/-- The text without its trailing white space. -/
def trimEnd (cs : List Char) : List Char :=
  (cs.reverse.dropWhile isBlank).reverse

/-- The text without white space at either end. -/
def trim (cs : List Char) : List Char :=
  trimEnd (trimStart cs)

@[simp] theorem trim_nil : trim [] = [] := rfl

theorem mem_trimStart {c : Char} (hc : isBlank c = false) {cs : List Char} (h : c ∈ cs) :
    c ∈ trimStart cs := by
  induction cs with
  | nil => cases h
  | cons d cs ih =>
    rw [trimStart, List.dropWhile_cons]
    split
    · next hd =>
      refine ih ((List.mem_cons.1 h).resolve_left ?_)
      intro heq
      rw [heq, hd] at hc
      cases hc
    · exact h

/-- Trimming a text takes nothing off it but white space. -/
theorem mem_trim {c : Char} (hc : isBlank c = false) {cs : List Char} (h : c ∈ cs) :
    c ∈ trim cs := by
  have behind := mem_trimStart hc (List.mem_reverse.2 (mem_trimStart hc h))
  rwa [trim, trimEnd, List.mem_reverse]

theorem trimStart_of_forall {cs : List Char} (h : ∀ c ∈ cs, isBlank c = true) :
    trimStart cs = [] := by
  have hnil : trimStart (cs ++ []) = trimStart [] := List.dropWhile_append_of_pos h
  rwa [List.append_nil] at hnil

/-- White space in front of a text is trimmed. -/
theorem trim_append_left {blanks : List Char} (h : ∀ c ∈ blanks, isBlank c = true) (cs : List Char) :
    trim (blanks ++ cs) = trim cs := by
  have hstart : trimStart (blanks ++ cs) = trimStart cs := by
    rw [trimStart, List.dropWhile_append_of_pos h, trimStart]
  rw [trim, hstart, trim]

theorem countP_trimStart (cs : List Char) :
    (trimStart cs).countP (!isBlank ·) = cs.countP (!isBlank ·) := by
  induction cs with
  | nil => rfl
  | cons c cs ih =>
    rw [trimStart, List.dropWhile_cons]
    split
    · next hc =>
      rw [List.countP_cons_of_neg (by rw [hc]; exact Bool.false_ne_true)]
      exact ih
    · rfl

theorem countP_trim (cs : List Char) : (trim cs).countP (!isBlank ·) = cs.countP (!isBlank ·) := by
  rw [trim, trimEnd, List.countP_reverse]
  exact (countP_trimStart _).trans ((List.countP_reverse).trans (countP_trimStart cs))

/-- Only white space in front of a text is lost by trimming. -/
theorem trim_append_eq_iff {front cs : List Char} :
    trim (front ++ cs) = trim cs ↔ ∀ c ∈ front, isBlank c = true := by
  constructor
  · intro h c hc
    have hcount := congrArg (List.countP (!isBlank ·)) h
    rw [countP_trim, countP_trim, List.countP_append] at hcount
    have hnone : front.countP (!isBlank ·) = 0 := by omega
    simpa using List.countP_eq_zero.1 hnone c hc
  · exact fun h => trim_append_left h cs

/-- White space behind a text is trimmed. -/
theorem trim_append_right {blanks : List Char} (h : ∀ c ∈ blanks, isBlank c = true)
    (cs : List Char) : trim (cs ++ blanks) = trim cs := by
  have hblanks : trimStart blanks = [] := trimStart_of_forall h
  have hstart : trimStart (cs ++ blanks) =
      if (trimStart cs).isEmpty then trimStart blanks else trimStart cs ++ blanks :=
    List.dropWhile_append
  rw [trim, hstart, trim]
  split
  · next hempty => rw [hblanks, List.isEmpty_iff.1 hempty]
  · have hreverse : ∀ c ∈ blanks.reverse, isBlank c = true := fun c hc =>
      h c (List.mem_reverse.1 hc)
    rw [trimEnd, List.reverse_append, List.dropWhile_append_of_pos hreverse, trimEnd]

/-- A text without white space at either end is left as it is. -/
theorem trim_eq_self {cs : List Char} (hhead : ∀ c ∈ cs.head?, isBlank c = false)
    (hlast : ∀ c ∈ cs.getLast?, isBlank c = false) : trim cs = cs := by
  have hkeep : ∀ ds : List Char, (∀ c ∈ ds.head?, isBlank c = false) → ds.dropWhile isBlank = ds := by
    intro ds hds
    cases ds with
    | nil => rfl
    | cons d ds => rw [List.dropWhile_cons, hds d rfl]; rfl
  have hreverse : ∀ c ∈ cs.reverse.head?, isBlank c = false := by
    rw [List.head?_reverse]
    exact hlast
  rw [trim, trimStart, hkeep cs hhead, trimEnd, hkeep _ hreverse, List.reverse_reverse]

theorem trim_of_solid {cs : List Char} (h : ∀ c ∈ cs, isBlank c = false) : trim cs = cs :=
  trim_eq_self (fun c hc => h c (List.mem_of_mem_head? hc)) fun c hc => h c (List.mem_of_getLast? hc)

/-- A text starts with no white space once that has been taken off. -/
theorem head?_trimStart (cs : List Char) : ∀ c ∈ (trimStart cs).head?, isBlank c = false := by
  intro c hc
  have hhead := List.head?_dropWhile_not isBlank cs
  rw [show cs.dropWhile isBlank = trimStart cs from rfl, Option.mem_def.1 hc] at hhead
  simpa using hhead

theorem trimEnd_prefix (cs : List Char) : trimEnd cs <+: cs := by
  have hsuffix : cs.reverse.dropWhile isBlank <:+ cs.reverse := List.dropWhile_suffix _
  rwa [← List.reverse_prefix, List.reverse_reverse] at hsuffix

/-- Trimming takes off white space at both ends. -/
theorem exists_trim (cs : List Char) : ∃ lead trail, cs = lead ++ (trim cs ++ trail) ∧
    (∀ c ∈ lead, isBlank c = true) ∧ ∀ c ∈ trail, isBlank c = true := by
  have mem : ∀ ds : List Char, ∀ c ∈ ds.takeWhile isBlank, isBlank c = true := fun ds =>
    List.all_eq_true.1 (List.all_takeWhile (p := isBlank))
  refine ⟨cs.takeWhile isBlank, ((trimStart cs).reverse.takeWhile isBlank).reverse, ?_, mem cs,
    fun c hc => mem _ c (List.mem_reverse.1 hc)⟩
  rw [trim, trimEnd, ← List.reverse_append, List.takeWhile_append_dropWhile, List.reverse_reverse,
    trimStart, List.takeWhile_append_dropWhile]

/-- There is no white space at either end of a trimmed text. -/
theorem head?_trim (cs : List Char) : ∀ c ∈ (trim cs).head?, isBlank c = false := by
  intro c hc
  obtain ⟨tail, hcut⟩ := trimEnd_prefix (trimStart cs)
  refine head?_trimStart cs c ?_
  rw [trim] at hc
  rw [← hcut, List.head?_append, Option.mem_def.1 hc]
  rfl

theorem getLast?_trim (cs : List Char) : ∀ c ∈ (trim cs).getLast?, isBlank c = false := by
  rw [trim, trimEnd, List.getLast?_reverse]
  exact head?_trimStart _

theorem trim_trim (cs : List Char) : trim (trim cs) = trim cs :=
  trim_eq_self (head?_trim cs) (getLast?_trim cs)

/-- There is no white space in front of a text that starts as one does without it. -/
theorem eq_nil_of_lead {cs lead as bs : List Char} (h : cs ++ as = lead ++ bs) (hne : cs ≠ [])
    (hhead : ∀ c ∈ cs.head?, isBlank c = false) (hlead : ∀ c ∈ lead, isBlank c = true) :
    lead = [] := by
  cases lead with
  | nil => rfl
  | cons d lead =>
    obtain ⟨c, cs, rfl⟩ := List.exists_cons_of_ne_nil hne
    obtain ⟨rfl, -⟩ := List.cons.inj h
    exact absurd (hlead c List.mem_cons_self) (Bool.eq_false_iff.1 (hhead c rfl))

/-- There is no white space behind a text that ends as one does without it. -/
theorem eq_nil_of_trail {cs trail as bs : List Char} (h : as ++ cs = bs ++ trail) (hne : cs ≠ [])
    (hlast : ∀ c ∈ cs.getLast?, isBlank c = false) (htrail : ∀ c ∈ trail, isBlank c = true) :
    trail = [] := by
  have hreverse := congrArg List.reverse h
  rw [List.reverse_append, List.reverse_append] at hreverse
  refine List.reverse_eq_nil_iff.1 (eq_nil_of_lead hreverse (mt List.reverse_eq_nil_iff.1 hne) ?_ ?_)
  · rwa [List.head?_reverse]
  · exact fun c hc => htrail c (List.mem_reverse.1 hc)

end Restyle.Text
