import Restyle.Proofs.TokenEnds

/-!
# Line ends stay whole

A carriage return and a line feed are one line end.  No token ends between the two (`keptAt_scan`), so
the lines of a text can be counted token by token.  For each scanner there is one lemma: a part of a
token that ends in a carriage return has looked at the character behind it.
-/

namespace Restyle.Css

/-- Whether two texts that stand side by side do not share a line end. -/
def KeepsLineEnd (front rest : List Char) : Prop :=
  front.getLast? = some '\r' → rest.head? ≠ some '\n'

theorem keepsLineEnd_nil (rest : List Char) : KeepsLineEnd [] rest := nofun

/-- What holds of a text holds of its end. -/
theorem KeepsLineEnd.tail {c : Char} {front rest : List Char} (h : KeepsLineEnd (c :: front) rest) :
    KeepsLineEnd front rest := by
  intro hlast
  apply h
  rw [List.getLast?_cons, hlast, Option.getD_some]

namespace Token

/-- Whether a text may be cut behind its first `n` characters. -/
def KeptAt (cs : List Char) (n : Nat) : Prop :=
  KeepsLineEnd (cs.take n) (cs.drop n)

theorem keptAt_zero (cs : List Char) : KeptAt cs 0 :=
  keepsLineEnd_nil _

theorem keptAt_of_drop_eq_nil {cs : List Char} {n : Nat} (h : cs.drop n = []) : KeptAt cs n := by
  intro _
  rw [h]
  exact nofun

theorem keptAt_one {c : Char} (h : c ≠ '\r') (cs : List Char) : KeptAt (c :: cs) 1 := by
  intro hlast
  exact absurd (Option.some.inj hlast) h

/-- Only a cut that adds nothing to the one in front of it has to ask for that. -/
theorem KeptAt.add {cs : List Char} {k m : Nat} (h : KeptAt (cs.drop k) m)
    (hk : m = 0 → KeptAt cs k) : KeptAt cs (k + m) := by
  rcases Nat.eq_zero_or_pos m with rfl | hm
  · exact hk rfl
  · intro hlast
    rw [← List.drop_drop]
    by_cases hnil : cs.drop k = []
    · rw [hnil, List.drop_nil]
      exact nofun
    · apply h
      have hne : (cs.drop k).take m ≠ [] := by
        rw [ne_eq, List.take_eq_nil_iff, not_or]
        exact ⟨Nat.pos_iff_ne_zero.1 hm, hnil⟩
      rw [List.take_add, List.getLast?_append, List.getLast?_eq_some_getLast hne, Option.some_or,
        ← List.getLast?_eq_some_getLast hne] at hlast
      exact hlast

theorem KeptAt.trans {cs : List Char} {k m : Nat} (h : KeptAt cs k) (h' : KeptAt (cs.drop k) m) :
    KeptAt cs (k + m) :=
  h'.add fun _ => h

/-- A cut behind the first character and some more of what stands behind it. -/
theorem KeptAt.trans_behind {c : Char} {cs : List Char} {k m : Nat} (h : KeptAt (c :: cs) (1 + k))
    (h' : KeptAt (cs.drop k) m) : KeptAt (c :: cs) (1 + k + m) := by
  refine h.trans ?_
  rwa [Nat.add_comm, List.drop_succ_cons]

theorem keptAt_append {front rest : List Char} (h : KeepsLineEnd front rest) :
    KeptAt (front ++ rest) front.length := by
  unfold KeptAt
  rwa [List.take_left, List.drop_left]

/-- A run of characters that may stop behind a carriage return does not stop before a line feed. -/
theorem keptAt_takeWhile {p : Char → Bool} (hp : p '\r' = true → p '\n' = true) (cs : List Char) :
    KeptAt cs (cs.takeWhile p).length := by
  have hkeeps : KeepsLineEnd (cs.takeWhile p) (cs.dropWhile p) := by
    intro hlast hhead
    have hcarriage : p '\r' = true :=
      List.all_eq_true.1 List.all_takeWhile _ (List.mem_of_getLast? hlast)
    have hfeed : p '\n' = false := by
      have hnot := List.head?_dropWhile_not p cs
      rw [hhead] at hnot
      simpa using hnot
    rw [hp hcarriage] at hfeed
    cases hfeed
  have hsplit := keptAt_append hkeeps
  rwa [List.takeWhile_append_dropWhile] at hsplit

theorem keptAt_spaceLength (cs : List Char) : KeptAt cs (spaceLength cs) :=
  keptAt_takeWhile (fun _ => rfl) cs

/-! ## Escapes and names -/

theorem keptAt_newlineLength (cs : List Char) : KeptAt cs (newlineLength cs) := by
  cases cs with
  | nil => exact keptAt_zero _
  | cons c cs =>
    rw [newlineLength_cons]
    by_cases hpair : c = '\r' ∧ cs.head? = some '\n'
    · obtain ⟨ds, rfl⟩ := List.head?_eq_some_iff.1 hpair.2
      rw [if_pos hpair]
      intro hlast
      cases hlast
    · rw [if_neg hpair]
      split
      · intro hlast hhead
        exact hpair ⟨Option.some.inj hlast, hhead⟩
      · exact keptAt_zero _

theorem keptAt_gapLength (cs : List Char) : KeptAt cs (gapLength cs) := by
  cases cs with
  | nil => exact keptAt_zero _
  | cons c cs =>
    rw [gapLength]
    split
    · exact keptAt_newlineLength _
    · next hnewline =>
      split
      · apply keptAt_one
        rintro rfl
        exact hnewline rfl
      · exact keptAt_zero _

theorem keptAt_escapeLength {cs : List Char} (h : startsNewline cs = false) :
    KeptAt cs (escapeLength cs) := by
  unfold escapeLength
  dsimp only
  split
  · cases cs with
    | nil => exact keptAt_zero _
    | cons c cs =>
      rw [List.length_cons, Nat.min_eq_left (Nat.le_add_left 1 _)]
      apply keptAt_one
      rintro rfl
      cases h
  · have hdigits : KeptAt cs (hexDigits cs).length := by
      intro hlast
      have hfront : hexDigits cs = cs.take (hexDigits cs).length :=
        List.prefix_iff_eq_take.1 ((List.takeWhile_prefix _).trans (List.take_prefix _ _))
      rw [← hfront] at hlast
      have hcarriage := List.all_eq_true.1 List.all_takeWhile _ (List.mem_of_getLast? hlast)
      cases hcarriage
    exact hdigits.trans (keptAt_gapLength _)

/-- What a backslash in a string takes in. -/
theorem keptAt_stringEscape (cs : List Char) :
    KeptAt cs (if startsNewline cs then newlineLength cs else escapeLength cs) := by
  split
  · exact keptAt_newlineLength cs
  · next h => exact keptAt_escapeLength (Bool.eq_false_iff.2 h)

theorem keptAt_nameLength (cs : List Char) : KeptAt cs (nameLength cs) := by
  fun_induction nameLength cs with
  | case1 => exact keptAt_zero _
  | case2 => exact keptAt_zero _
  | case3 c cs hc hnewline ih =>
    have hbackslash : c ≠ '\r' := by
      rintro rfl
      cases hc
    have hescape := (keptAt_one hbackslash cs).trans
      (keptAt_escapeLength (Bool.eq_false_iff.2 hnewline))
    exact hescape.trans_behind ih
  | case4 c cs hc hname ih =>
    have hcarriage : c ≠ '\r' := by
      rintro rfl
      cases hname
    exact (keptAt_one hcarriage cs).trans ih
  | case5 => exact keptAt_zero _

/-! ## Numbers -/

theorem keptAt_digitsLength (cs : List Char) : KeptAt cs (Number.digitsLength cs) :=
  keptAt_takeWhile (fun hdigit => by cases hdigit) cs

theorem keptAt_signLength (cs : List Char) : KeptAt cs (Number.signLength cs) := by
  unfold Number.signLength
  split
  · exact keptAt_one (by decide) _
  · exact keptAt_one (by decide) _
  · exact keptAt_zero _

theorem keptAt_fractionLength (cs : List Char) : KeptAt cs (fractionLength cs) := by
  cases cs with
  | nil => exact keptAt_zero _
  | cons c cs =>
    rw [fractionLength_cons]
    split
    · next h =>
      rw [Nat.add_comm, h.1]
      exact (keptAt_one (by decide) cs).trans (keptAt_digitsLength _)
    · exact keptAt_zero _

theorem keptAt_exponentLength (cs : List Char) : KeptAt cs (Number.exponentLength cs) := by
  cases cs with
  | nil => exact keptAt_zero _
  | cons c cs =>
    rw [exponentLength_cons]
    split
    · next h =>
      have hmark : c ≠ '\r' := by
        rintro rfl
        exact absurd h.1 (by decide)
      have hsign : KeptAt (c :: cs) (1 + Number.signLength cs) :=
        (keptAt_one hmark cs).trans (keptAt_signLength cs)
      have hlength : Number.digitsLength (cs.drop (Number.signLength cs)) + 1 +
          Number.signLength cs =
            1 + Number.signLength cs + Number.digitsLength (cs.drop (Number.signLength cs)) := by
        omega
      rw [hlength]
      exact hsign.trans_behind (keptAt_digitsLength _)
    · exact keptAt_zero _

theorem keptAt_numberLength (cs : List Char) : KeptAt cs (numberLength cs) := by
  unfold numberLength
  dsimp only
  split
  · exact keptAt_zero _
  · exact (((keptAt_signLength cs).trans (keptAt_digitsLength _)).trans
      (keptAt_fractionLength _)).trans (keptAt_exponentLength _)

/-! ## Strings, comments and addresses -/

/-- What a token takes in behind its first character may be cut off there if the first character is no
carriage return. -/
theorem KeptAt.behind {c : Char} {cs : List Char} {n : Nat} (h : KeptAt cs n) (hc : c ≠ '\r') :
    KeptAt (c :: cs) (1 + n) :=
  (keptAt_one hc cs).trans h

theorem keptAt_scanString {quote : Char} (hquote : quote ≠ '\r') (cs : List Char) :
    KeptAt cs (scanString quote cs).2 := by
  fun_induction scanString quote cs with
  | case1 => exact keptAt_zero _
  | case2 c cs hc =>
    apply keptAt_one
    rwa [beq_iff_eq.1 hc]
  | case3 => exact keptAt_zero _
  | case4 c cs hc hnewline hescape n kind m hrest ih =>
    have hbackslash : c ≠ '\r' := by
      rintro rfl
      cases hescape
    have hescaped := (keptAt_stringEscape cs).behind hbackslash
    rw [hrest] at ih
    exact hescaped.trans_behind ih
  | case5 c cs hc hnewline hescape kind m hrest ih =>
    have hcarriage : c ≠ '\r' := by
      rintro rfl
      exact hnewline rfl
    rw [hrest] at ih
    exact ih.behind hcarriage

theorem eq_nil_of_commentLength {cs : List Char} (h : commentLength cs = 0) : cs = [] := by
  unfold commentLength at h
  split at h
  · rfl
  · cases h
  · omega

theorem keptAt_commentLength (cs : List Char) : KeptAt cs (commentLength cs) := by
  fun_induction commentLength cs with
  | case1 => exact keptAt_zero _
  | case2 cs =>
    intro hlast
    cases hlast
  | case3 c cs hopen ih =>
    refine KeptAt.add (k := 1) ih fun hzero => ?_
    rw [eq_nil_of_commentLength hzero]
    exact keptAt_of_drop_eq_nil rfl

theorem eq_nil_of_badUrlLength {cs : List Char} (h : badUrlLength cs = 0) : cs = [] := by
  unfold badUrlLength at h
  split at h
  · rfl
  · cases h
  · omega
  · omega
  · omega

theorem keptAt_badUrlLength (cs : List Char) : KeptAt cs (badUrlLength cs) := by
  fun_induction badUrlLength cs with
  | case1 => exact keptAt_zero _
  | case2 cs => exact keptAt_one (by decide) _
  | case3 cs ih =>
    refine KeptAt.add (k := 2) ih fun _ hlast => ?_
    cases hlast
  | case4 cs ih =>
    refine KeptAt.add (k := 2) ih fun _ hlast => ?_
    cases hlast
  | case5 c cs hclose hescape hdouble ih =>
    refine KeptAt.add (k := 1) ih fun hzero => ?_
    rw [eq_nil_of_badUrlLength hzero]
    exact keptAt_of_drop_eq_nil rfl

/-- What is left of a bad address behind some characters. -/
theorem keptAt_badUrl {c : Char} {cs : List Char} : KeptAt (c :: cs) (1 + badUrlLength cs) := by
  refine KeptAt.add (k := 1) (keptAt_badUrlLength cs) fun hzero => ?_
  rw [eq_nil_of_badUrlLength hzero]
  exact keptAt_of_drop_eq_nil rfl

theorem keptAt_scanUrlEnd (cs : List Char) : KeptAt cs (scanUrlEnd cs).2 := by
  have hspace := keptAt_spaceLength cs
  unfold scanUrlEnd
  dsimp only
  split
  · exact hspace
  · next c rest hrest =>
    split
    · next hc =>
      refine hspace.trans ?_
      rw [hrest]
      apply keptAt_one
      rintro rfl
      cases hc
    · rw [Nat.add_assoc]
      refine hspace.trans ?_
      rw [hrest]
      exact keptAt_badUrl

theorem keptAt_scanUrl (cs : List Char) : KeptAt cs (scanUrl cs).2 := by
  fun_induction scanUrl cs with
  | case1 => exact keptAt_zero _
  | case2 c cs hc =>
    apply keptAt_one
    rintro rfl
    cases hc
  | case3 c cs hc hspace => exact keptAt_scanUrlEnd _
  | case4 c cs hc hspace hbarred => exact keptAt_badUrl
  | case5 c cs hc hspace hbarred hescape hnewline => exact keptAt_badUrl
  | case6 c cs hc hspace hbarred hescape hnewline n kind m hrest ih =>
    have hbackslash : c ≠ '\r' := by
      rintro rfl
      cases hescape
    have hescaped := (keptAt_escapeLength (Bool.eq_false_iff.2 hnewline)).behind hbackslash
    rw [hrest] at ih
    exact hescaped.trans_behind ih
  | case7 c cs hc hspace hbarred hescape kind m hrest ih =>
    have hcarriage : c ≠ '\r' := by
      rintro rfl
      exact hspace rfl
    rw [hrest] at ih
    exact ih.behind hcarriage

/-! ## Tokens -/

theorem keptAt_scanUnit {n : Nat} {cs : List Char} (h : KeptAt cs n) :
    KeptAt cs (scanUnit n cs).2 := by
  rw [scanUnit_eq]
  split
  · next hpercent =>
    obtain ⟨rest, hrest⟩ := List.head?_eq_some_iff.1 hpercent
    refine h.trans ?_
    rw [hrest]
    exact keptAt_one (by decide) _
  · split
    · exact h.trans (keptAt_nameLength _)
    · exact h

theorem keptAt_scanIdent (cs : List Char) : KeptAt cs (scanIdent cs).2 := by
  have hname := keptAt_nameLength cs
  unfold scanIdent
  dsimp only
  split
  · next rest hrest =>
    have hround : KeptAt cs (nameLength cs + 1) := by
      refine hname.trans ?_
      rw [hrest]
      exact keptAt_one (by decide) _
    have hdrop : cs.drop (nameLength cs + 1) = rest := by
      rw [← List.drop_drop, hrest]
      rfl
    split
    · have hspace : KeptAt cs (nameLength cs + 1 + spaceLength rest) := by
        refine hround.trans ?_
        rw [hdrop]
        exact keptAt_spaceLength rest
      refine hspace.trans ?_
      rw [← List.drop_drop, hdrop]
      exact keptAt_scanUrl _
    · exact hround
  · exact hname

/-- A token that has been scanned from its first character on. -/
theorem KeptAt.from_first {c : Char} {cs : List Char} {n : Nat} (h : KeptAt (c :: cs) n)
    (hc : c ≠ '\r') : KeptAt (c :: cs) (1 + (n - 1)) := by
  cases n with
  | zero => exact keptAt_one hc cs
  | succ n => rwa [Nat.add_sub_cancel, Nat.add_comm]

/-- No token ends within a line end. -/
theorem keptAt_scan (c : Char) (cs : List Char) : KeptAt (c :: cs) (1 + (scan c cs).2) := by
  unfold scan
  dsimp only
  by_cases hspace : isSpace c = true
  · have hlength : 1 + spaceLength cs = spaceLength (c :: cs) := by
      rw [spaceLength, spaceLength, List.takeWhile_cons_of_pos hspace, List.length_cons, Nat.add_comm]
    rw [if_pos hspace, hlength]
    exact keptAt_spaceLength _
  · have hc : c ≠ '\r' := by
      rintro rfl
      exact hspace rfl
    have hsingle : KeptAt (c :: cs) (1 + 0) := keptAt_one hc cs
    rw [if_neg hspace]
    split
    · exact (keptAt_scanString hc cs).behind hc
    split
    · split
      · exact (keptAt_nameLength cs).behind hc
      · exact hsingle
    split
    · split
      · exact (keptAt_nameLength cs).behind hc
      · exact hsingle
    split
    · next hcomment =>
      rw [Bool.and_eq_true, beq_iff_eq, beq_iff_eq] at hcomment
      obtain ⟨ds, rfl⟩ := List.head?_eq_some_iff.1 hcomment.2
      exact ((keptAt_commentLength ds).behind (by decide)).behind hc
    split
    · exact (keptAt_scanUnit (keptAt_numberLength (c :: cs))).from_first hc
    split
    · next hmark =>
      rw [Bool.and_eq_true, List.isPrefixOf_iff_prefix] at hmark
      obtain ⟨rest, rfl⟩ := hmark.2
      intro hlast
      cases hlast
    split
    · next hmark =>
      rw [Bool.and_eq_true, List.isPrefixOf_iff_prefix] at hmark
      obtain ⟨rest, rfl⟩ := hmark.2
      intro hlast
      cases hlast
    split
    · exact (keptAt_scanIdent (c :: cs)).from_first hc
    split
    · next hcomparison =>
      rw [Bool.and_eq_true, beq_iff_eq] at hcomparison
      obtain ⟨ds, rfl⟩ := List.head?_eq_some_iff.1 hcomparison.2
      exact (keptAt_one (by decide) ds).behind hc
    · exact hsingle

end Token

end Restyle.Css
