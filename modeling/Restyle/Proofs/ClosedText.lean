import Restyle.Proofs.Boundaries
import Restyle.Proofs.Inert

/-!
# Texts in which everything is closed

A string, an address or a comment that runs to the end of a text takes in whatever is put behind it, and
a backslash at the end takes in one character.  A text that ends in none of these is cut into the same
tokens in front of any stop (`Token.row_append_of_isEnded`).  For each scanner there is one lemma: what
it takes ends before a stop behind the text, or else it is all of the text and one of the kinds that
need an end of their own (`Token.reach_scan`).

If the blocks of the text are closed too and no curly bracket in it closes a block outside, then its
tokens nest inside an open block as they nest alone (`ClosedText.foldl_push_inside`).
-/

namespace Restyle.Css

namespace Token

/-! ## Tokens that have their end -/

/-- The kinds of tokens that go on until a mark of their own ends them. -/
def Kind.needsEnd : Kind → Bool
  | .string | .url | .badUrl | .comment => true
  | _ => false

/-- A string has its closing quotation mark, an address its bracket and a comment its mark: nothing
that is put behind the token becomes a part of it. -/
def IsEnded (t : Token) : Prop :=
  t.kind.needsEnd = true → ∀ c cs, t.text = c :: cs → ∀ x, (scan c (cs ++ [x])).2 ≤ cs.length

/-! ## What scanners reach -/

/-- What is scanned in front of a stop ends before it, or else it is all of a text of `n` characters
that needs an end. -/
def Reach (n : Nat) (before scanned : Kind × Nat) : Prop :=
  before.2 ≤ n ∨ scanned.1.needsEnd = true ∧ scanned.2 = n

/-- Two scans that branch alike reach as far as their branches. -/
theorem reach_ite {p : Prop} [Decidable p] {n : Nat} {a a' b b' : Kind × Nat}
    (ha : p → Reach n a b) (hb : ¬p → Reach n a' b') :
    Reach n (if p then a else a') (if p then b else b') := by
  by_cases h : p
  · rw [if_pos h, if_pos h]
    exact ha h
  · rw [if_neg h, if_neg h]
    exact hb h

/-- What is reached behind some characters that have been taken already. -/
theorem Reach.behind {n k : Nat} {before scanned : Kind × Nat} (h : Reach n before scanned) :
    Reach (k + n) (before.1, k + before.2) (scanned.1, k + scanned.2) := by
  rcases h with h | ⟨hkind, h⟩
  · exact .inl (Nat.add_le_add_left h k)
  · exact .inr ⟨hkind, congrArg (k + ·) h⟩

theorem getLast?_drop_ne {cs : List Char} {y : Char} (h : cs.getLast? ≠ some y) (n : Nat) :
    (cs.drop n).getLast? ≠ some y := by
  rw [List.getLast?_drop]
  split
  · exact nofun
  · exact h

/-- A character, what is escaped behind it, and the rest. -/
theorem length_behind (c : Char) {cs : List Char} {n : Nat} (h : n ≤ cs.length) :
    1 + n + (cs.drop n).length = (c :: cs).length := by
  rw [List.length_drop, List.length_cons]
  omega

section

variable {x : Char} (hx : Stop x)

include hx

/-- A name ends before a stop unless there is a backslash in between. -/
theorem nameLength_le_of_getLast?_ne {cs : List Char} (h : cs.getLast? ≠ some '\\') :
    nameLength (cs ++ [x]) ≤ cs.length := by
  have hbackslash : x ≠ '\\' := hx.ne _ (by decide)
  fun_induction nameLength cs with
  | case1 => simp [nameLength, hbackslash, hx.nameChar]
  | case2 c cs hc hnewline =>
    rw [List.cons_append, nameLength, if_pos hc,
      if_pos ((startsNewline_stop hx cs []).trans hnewline)]
    exact Nat.zero_le _
  | case3 c cs hc hnewline ih =>
    have keeps : ¬startsNewline (cs ++ [x]) = true := by
      rw [startsNewline_stop hx]
      exact hnewline
    have hcs : cs ≠ [] := by
      rintro rfl
      exact h (by rw [beq_iff_eq.1 hc]; rfl)
    have hlast : cs.getLast? ≠ some '\\' := by
      rwa [List.getLast?_cons, List.getLast?_eq_some_getLast hcs, Option.getD_some,
        ← List.getLast?_eq_some_getLast hcs] at h
    have hrest := ih (getLast?_drop_ne hlast _)
    have hescape := escapeLength_le cs
    rw [List.length_drop] at hrest
    rw [List.cons_append, nameLength, if_pos hc, if_neg keeps, escapeLength_stop hx hcs,
      drop_stop hescape, List.length_cons]
    omega
  | case4 c cs hc hname ih =>
    have hrest : nameLength (cs ++ [x]) ≤ cs.length := by
      cases cs with
      | nil => exact ih (Option.some_ne_none '\\').symm
      | cons d cs => exact ih (by rwa [List.getLast?_cons_cons] at h)
    rw [List.cons_append, nameLength, if_neg hc, if_pos hname, List.length_cons]
    omega
  | case5 c cs hc hname =>
    rw [List.cons_append, nameLength, if_neg hc, if_neg hname]
    exact Nat.zero_le _

/-- A string ends before a stop, by a quotation mark or by a line end, or it is all of the text. -/
theorem reach_scanString (quote : Char) (cs : List Char) :
    Reach cs.length (scanString quote (cs ++ [x])) (scanString quote cs) := by
  fun_induction scanString quote cs with
  | case1 => exact .inr ⟨rfl, rfl⟩
  | case2 c cs hc =>
    rw [List.cons_append, scanString, if_pos hc]
    exact .inl (Nat.le_add_left 1 _)
  | case3 c cs hc hnewline =>
    rw [List.cons_append, scanString, if_neg hc, if_pos hnewline]
    exact .inl (Nat.zero_le _)
  | case4 c cs hc hnewline hescape n kind m hrest ih =>
    by_cases hcs : cs = []
    · subst hcs
      obtain ⟨rfl, rfl⟩ : kind = .string ∧ m = 0 := by
        simpa [scanString, eq_comm] using hrest
      exact .inr ⟨rfl, rfl⟩
    · have hn : (if startsNewline cs then newlineLength cs else escapeLength cs) = n := rfl
      have hle := stringEscape_le cs
      have hlength := length_behind c hle
      rw [List.cons_append, scanString, if_neg hc, if_neg hnewline, if_pos hescape]
      dsimp only
      rw [stringEscape_stop hx hcs, drop_stop hle, hn, ← hlength]
      rw [hrest] at ih
      exact ih.behind
  | case5 c cs hc hnewline hescape kind m hrest ih =>
    rw [List.cons_append, scanString, if_neg hc, if_neg hnewline, if_neg hescape, List.length_cons,
      Nat.add_comm cs.length]
    rw [hrest] at ih
    exact ih.behind

theorem reach_commentLength (cs : List Char) :
    commentLength (cs ++ [x]) ≤ cs.length ∨ commentLength cs = cs.length := by
  have hslash : x ≠ '/' := hx.ne _ (by decide)
  fun_induction commentLength cs with
  | case1 => exact .inr rfl
  | case2 cs =>
    simp only [List.cons_append, commentLength, List.length_cons]
    exact .inl (Nat.le_add_left 2 _)
  | case3 c cs hopen ih =>
    have hopen' : ∀ tail, c = '*' → cs ++ [x] = '/' :: tail → False := by
      intro tail hc heq
      cases cs with
      | nil => exact hslash (List.cons.inj heq).1
      | cons d cs => exact hopen cs hc (by rw [(List.cons.inj heq).1])
    rw [List.cons_append, commentLength.eq_3 _ _ hopen', List.length_cons]
    omega

theorem reach_badUrlLength (cs : List Char) :
    badUrlLength (cs ++ [x]) ≤ cs.length ∨ badUrlLength cs = cs.length := by
  have hround : x ≠ ')' := hx.ne _ (by decide)
  have hbackslash : x ≠ '\\' := hx.ne _ (by decide)
  fun_induction badUrlLength cs with
  | case1 => exact .inr rfl
  | case2 cs =>
    rw [List.cons_append, badUrlLength]
    exact .inl (Nat.le_add_left 1 _)
  | case3 cs ih =>
    simp only [List.cons_append, badUrlLength, List.length_cons]
    omega
  | case4 cs ih =>
    simp only [List.cons_append, badUrlLength, List.length_cons]
    omega
  | case5 c cs hclose hescape hdouble ih =>
    have passes : ∀ {y : Char}, x ≠ y → (∀ tail, c = '\\' → cs = y :: tail → False) →
        ∀ tail, c = '\\' → cs ++ [x] = y :: tail → False := by
      intro y hy hno tail hc heq
      cases cs with
      | nil => exact hy (List.cons.inj heq).1
      | cons d cs => exact hno cs hc (by rw [(List.cons.inj heq).1])
    rw [List.cons_append, badUrlLength.eq_5 c _ hclose (passes hround hescape)
      (passes hbackslash hdouble), List.length_cons]
    omega

/-- The remnants of a bad address that starts with some characters. -/
theorem reach_badUrl {n : Nat} {cs text : List Char} (h : n + cs.length = text.length) :
    Reach text.length (.badUrl, n + badUrlLength (cs ++ [x])) (.badUrl, n + badUrlLength cs) := by
  rcases reach_badUrlLength hx cs with hless | hall
  · refine .inl ?_
    dsimp only
    omega
  · exact .inr ⟨rfl, by dsimp only; omega⟩

theorem reach_scanUrlEnd (cs : List Char) :
    Reach cs.length (scanUrlEnd (cs ++ [x])) (scanUrlEnd cs) := by
  have hspace : spaceLength cs ≤ cs.length := length_takeWhile_le _ cs
  have hlength : (cs.drop (spaceLength cs)).length = cs.length - spaceLength cs := List.length_drop
  unfold scanUrlEnd
  dsimp only
  rw [spaceLength_stop hx, drop_stop hspace]
  cases hrest : cs.drop (spaceLength cs) with
  | nil =>
    rw [hrest, List.length_nil] at hlength
    refine .inr ⟨rfl, ?_⟩
    dsimp only
    omega
  | cons c rest =>
    rw [hrest, List.length_cons] at hlength
    dsimp only [List.cons_append]
    refine reach_ite (fun _ => .inl ?_) fun _ => reach_badUrl hx (by omega)
    dsimp only
    omega

theorem reach_scanUrl (cs : List Char) :
    Reach cs.length (scanUrl (cs ++ [x])) (scanUrl cs) := by
  fun_induction scanUrl cs with
  | case1 => exact .inr ⟨rfl, rfl⟩
  | case2 c cs hc =>
    rw [List.cons_append, scanUrl, if_pos hc]
    exact .inl (Nat.le_add_left 1 _)
  | case3 c cs hc hspace =>
    rw [List.cons_append, scanUrl, if_neg hc, if_pos hspace, ← List.cons_append]
    exact reach_scanUrlEnd hx (c :: cs)
  | case4 c cs hc hspace hbarred =>
    rw [List.cons_append, scanUrl, if_neg hc, if_neg hspace, if_pos hbarred]
    exact reach_badUrl hx (by rw [List.length_cons, Nat.add_comm])
  | case5 c cs hc hspace hbarred hescape hnewline =>
    rw [List.cons_append, scanUrl, if_neg hc, if_neg hspace, if_neg hbarred, if_pos hescape,
      if_pos ((startsNewline_stop hx cs []).trans hnewline)]
    exact reach_badUrl hx (by rw [List.length_cons, Nat.add_comm])
  | case6 c cs hc hspace hbarred hescape hnewline n kind m hrest ih =>
    have keeps : ¬startsNewline (cs ++ [x]) = true := by
      rw [startsNewline_stop hx]
      exact hnewline
    by_cases hcs : cs = []
    · subst hcs
      obtain ⟨rfl, rfl⟩ : kind = .url ∧ m = 0 := by
        simpa [scanUrl, eq_comm] using hrest
      exact .inr ⟨rfl, rfl⟩
    · have hn : escapeLength cs = n := rfl
      have hle := escapeLength_le cs
      have hlength := length_behind c hle
      rw [List.cons_append, scanUrl, if_neg hc, if_neg hspace, if_neg hbarred, if_pos hescape,
        if_neg keeps]
      dsimp only
      rw [escapeLength_stop hx hcs, drop_stop hle, hn, ← hlength]
      rw [hrest] at ih
      exact ih.behind
  | case7 c cs hc hspace hbarred hescape kind m hrest ih =>
    rw [List.cons_append, scanUrl, if_neg hc, if_neg hspace, if_neg hbarred, if_neg hescape,
      List.length_cons, Nat.add_comm cs.length]
    rw [hrest] at ih
    exact ih.behind

/-! ## Tokens -/

theorem reach_scanUnit {n : Nat} {cs : List Char} (hlast : cs.getLast? ≠ some '\\')
    (hn : n ≤ cs.length) : Reach cs.length (scanUnit n (cs ++ [x])) (scanUnit n cs) := by
  have hunit := nameLength_le_of_getLast?_ne hx (getLast?_drop_ne hlast n)
  have hlength : (cs.drop n).length = cs.length - n := List.length_drop
  have hhead := head?_stop (hx.ne '%' (by decide)) (cs.drop n) []
  rw [scanUnit_eq, scanUnit_eq, drop_stop hn, startsIdent_stop hx]
  simp only [hhead]
  refine reach_ite (fun hpercent => .inl ?_) fun _ => reach_ite (fun _ => .inl ?_) fun _ => .inl hn
  · obtain ⟨rest, hrest⟩ := List.head?_eq_some_iff.1 hpercent
    rw [hrest, List.length_cons] at hlength
    dsimp only
    omega
  · dsimp only
    omega

theorem reach_scanIdent {cs : List Char} (hlast : cs.getLast? ≠ some '\\') :
    Reach cs.length (scanIdent (cs ++ [x])) (scanIdent cs) := by
  have hle := nameLength_le_of_getLast?_ne hx hlast
  have hname := nameLength_stop hx hle []
  have hdrop := drop_stop (x := x) (nameLength_le cs) []
  have hhead := head?_stop (hx.ne '(' (by decide)) (cs.drop (nameLength cs)) []
  by_cases hround : (cs.drop (nameLength cs)).head? = some '('
  · obtain ⟨rest, hrest⟩ := List.head?_eq_some_iff.1 hround
    have hspace : spaceLength rest ≤ rest.length := length_takeWhile_le _ rest
    have hlength : cs.length = nameLength cs + 1 + rest.length := by
      have := congrArg List.length hrest
      rw [List.length_drop, List.length_cons] at this
      omega
    have hquoted := headIs_stop hx.quote (rest.drop (spaceLength rest)) []
    have hurl := reach_scanUrl hx (rest.drop (spaceLength rest))
    have htotal : cs.length =
        nameLength cs + 1 + spaceLength rest + (rest.drop (spaceLength rest)).length := by
      rw [List.length_drop]
      omega
    unfold scanIdent
    simp only [hname, hdrop, hrest, List.cons_append, spaceLength_stop hx, drop_stop hspace, hquoted,
      List.take_append_of_le_length (nameLength_le cs)]
    refine reach_ite (fun _ => ?_) fun _ => .inl ?_
    · rw [htotal]
      exact hurl.behind
    · dsimp only
      omega
  · have hround' : ((cs ++ [x]).drop (nameLength (cs ++ [x]))).head? ≠ some '(' := by
      rwa [hname, hdrop, ne_eq, hhead]
    rw [scanIdent_of_head?_ne hround']
    exact .inl hle

/-- A token ends before a stop behind the text, or it is all of the text and needs an end. -/
theorem reach_scan {c : Char} {cs : List Char} (hlast : (c :: cs).getLast? ≠ some '\\') :
    Reach cs.length (scan c (cs ++ [x])) (scan c cs) := by
  have hminus : x ≠ '-' := hx.ne _ (by decide)
  have hgreater : x ≠ '>' := hx.ne _ (by decide)
  have hbang : x ≠ '!' := hx.ne _ (by decide)
  have hclose := isPrefixOf_stop (show x ∉ ['-', '>'] by simp [hminus, hgreater]) cs []
  have hopen := isPrefixOf_stop (show x ∉ ['!', '-', '-'] by simp [hminus, hbang]) cs []
  have hstarts := startsIdent_stop hx cs []
  have hstarts' := startsIdent_stop hx (c :: cs) []
  have hnumber := numberLength_stop hx (c :: cs) []
  have hnamed : ((cs ++ [x]).head?.map fun d => d.isDigit || d == '-').getD false =
      (cs.head?.map fun d => d.isDigit || d == '-').getD false :=
    headIs_stop (by simp [hx.digit, hminus]) cs []
  have hstar : ((cs ++ [x]).head? == some '*') = (cs.head? == some '*') :=
    Bool.eq_iff_iff.2 (by rw [beq_iff_eq, beq_iff_eq, head?_stop (hx.ne '*' (by decide))])
  have hequals : ((cs ++ [x]).head? == some '=') = (cs.head? == some '=') :=
    Bool.eq_iff_iff.2 (by rw [beq_iff_eq, beq_iff_eq, head?_stop (hx.ne '=' (by decide))])
  have hname : nameLength (cs ++ [x]) ≤ cs.length := by
    refine nameLength_le_of_getLast?_ne hx ?_
    have htail := getLast?_drop_ne hlast 1
    rwa [List.drop_one, List.tail_cons] at htail
  have hunit := reach_scanUnit hx hlast (numberLength_le (c :: cs))
  have hident := reach_scanIdent hx hlast
  -- the first character has been counted with the numbers and names that start with it
  have first : ∀ {before scanned : Kind × Nat}, Reach (c :: cs).length before scanned →
      Reach cs.length (before.1, before.2 - 1) (scanned.1, scanned.2 - 1) := by
    rintro before scanned (h | ⟨hkind, h⟩)
    · exact .inl (Nat.sub_le_of_le_add h)
    · exact .inr ⟨hkind, by rw [h]; rfl⟩
  have hmarks : ∀ {front : List Char}, front.isPrefixOf cs = true → front.length ≤ cs.length :=
    fun hin => (List.isPrefixOf_iff_prefix.1 hin).length_le
  unfold scan
  dsimp only
  rw [hclose, hopen, hstarts, ← List.cons_append, hstarts', hnumber, hnamed, hstar, hequals,
    spaceLength_stop hx]
  refine reach_ite (fun _ => .inl (length_takeWhile_le _ cs)) fun _ => ?_
  refine reach_ite (fun _ => reach_scanString hx c cs) fun _ => ?_
  refine reach_ite (fun _ => ?_) fun _ => ?_
  · exact reach_ite (fun _ => .inl hname) fun _ => .inl (Nat.zero_le _)
  refine reach_ite (fun _ => ?_) fun _ => ?_
  · exact reach_ite (fun _ => .inl hname) fun _ => .inl (Nat.zero_le _)
  refine reach_ite (fun hcomment => ?_) fun _ => ?_
  · obtain ⟨rest, rfl⟩ := List.head?_eq_some_iff.1
      (beq_iff_eq.1 (Bool.and_eq_true_iff.1 hcomment).2)
    rw [List.cons_append, List.drop_one, List.drop_one, List.tail_cons, List.tail_cons,
      List.length_cons]
    rcases reach_commentLength hx rest with hless | hall
    · refine .inl ?_
      dsimp only
      omega
    · exact .inr ⟨rfl, by dsimp only; omega⟩
  refine reach_ite (fun _ => first hunit) fun _ => ?_
  refine reach_ite (fun hmark => .inl ?_) fun _ => ?_
  · exact hmarks (Bool.and_eq_true_iff.1 hmark).2
  refine reach_ite (fun hmark => .inl ?_) fun _ => ?_
  · exact hmarks (Bool.and_eq_true_iff.1 hmark).2
  refine reach_ite (fun _ => first hident) fun _ => ?_
  refine reach_ite (fun hequals => .inl ?_) fun _ => .inl (Nat.zero_le _)
  obtain ⟨rest, rfl⟩ := List.head?_eq_some_iff.1
    (beq_iff_eq.1 (Bool.and_eq_true_iff.1 hequals).2)
  exact Nat.le_add_left 1 _

/-- A token that has its end is cut off before a stop as it is cut off before the end of the text. -/
theorem scan_append_of_isEnded {c : Char} {cs : List Char} (hlast : (c :: cs).getLast? ≠ some '\\')
    (hended : IsEnded ⟨(scan c cs).1, c :: cs.take (scan c cs).2, .start⟩) :
    (scan c (cs ++ [x])).2 ≤ cs.length := by
  rcases reach_scan hx hlast with hless | ⟨hkind, hall⟩
  · exact hless
  · refine hended hkind c cs ?_ x
    rw [hall, List.take_length]

/-- A text whose tokens have their ends is cut into the same tokens in front of a stop. -/
theorem row_append_of_isEnded {cs : List Char} (hlast : cs.getLast? ≠ some '\\')
    (hended : ∀ t ∈ row cs, t.IsEnded) (s : List Char) :
    row (cs ++ x :: s) = row cs ++ row (x :: s) := by
  induction hn : cs.length using Nat.strong_induction_on generalizing cs with
  | _ n ih =>
    subst hn
    cases cs with
    | nil => rw [row_nil]; rfl
    | cons c cs =>
      rw [row_cons] at hended
      obtain ⟨hfirst, hrest⟩ := List.forall_mem_cons.1 hended
      have hless := scan_append_of_isEnded hx hlast hfirst
      have hscan := fun s => scan_stop hx hless s
      have hlength : (scan c cs).2 ≤ cs.length := by rwa [hscan []] at hless
      have hlast' : (cs.drop (scan c cs).2).getLast? ≠ some '\\' :=
        getLast?_drop_ne hlast ((scan c cs).2 + 1)
      rw [List.cons_append, row_cons, row_cons, hscan, drop_stop hlength,
        List.take_append_of_le_length hlength,
        ih _ (Nat.lt_succ_of_le (List.drop_suffix _ cs).length_le) hlast' hrest rfl]
      rfl

end

end Token

namespace Component

/-! ## Nesting inside an open block -/

section

variable {p : Pending} (hp : p.opener.kind = .opening .curly) (ps : List Pending)

include hp

/-- Tokens nest inside a block in curly brackets as they nest alone, unless a bracket is left over
that would close it. -/
theorem Nesting.foldl_push_inside {n : Nesting} {ts : List Token}
    (h : ∀ c ∈ finish (ts.foldl push n).level (ts.foldl push n).pending,
      c.isLeaf (.closing .curly) = false) :
    ts.foldl push (n.inside p ps) = (ts.foldl push n).inside p ps := by
  induction ts generalizing n with
  | nil => rfl
  | cons t ts ih =>
    have hopens : p.opener.kind.opens? = some .curly := by
      rw [hp]
      rfl
    rw [List.foldl_cons, List.foldl_cons, push_inside hopens ps, ih h]
    intro hpending hcloses
    have hkind := Token.Kind.eq_closing_of_closes? hcloses
    -- a bracket that is left over stays on the outermost level
    have htop : n.push t = onTop (.leaf t :: n.level) {} := by
      unfold push
      rw [hkind, hpending]
      rfl
    rw [List.foldl_cons, htop, foldl_push_onTop, finish_onTop] at h
    have hleaf := h (.leaf t) (List.mem_append_left _ (by simp))
    rw [isLeaf, hkind] at hleaf
    cases hleaf

end

/-- Tokens that nest to closed components leave no block open. -/
theorem foldl_push_of_isClosed {ts : List Token} (h : ∀ c ∈ ofTokens ts, c.isClosed = true) :
    ts.foldl Nesting.push {} = ⟨(ofTokens ts).reverse, []⟩ := by
  unfold ofTokens at h ⊢
  dsimp only at h ⊢
  generalize ts.foldl Nesting.push {} = n at h ⊢
  rcases n with ⟨level, _ | ⟨p, ps⟩⟩
  · simp [Nesting.finish]
  · obtain ⟨cs, c, hfinish, hopen⟩ := Nesting.exists_finish_cons level p ps
    have hclosed := h c (by rw [hfinish]; simp)
    rw [hopen] at hclosed
    cases hclosed

/-- The components of a text, up to places. -/
theorem unplaced_ofText_eq (loc : Location) (text : List Char) :
    (ofText loc text).map unplaced = ofTokens (Token.row text) := by
  rw [unplaced_ofText loc .start, ofText, unplaced_ofTokens, Token.row]

theorem unplaced_ofTokens_row (text : List Char) :
    (ofTokens (Token.row text)).map unplaced = ofTokens (Token.row text) := by
  rw [← unplaced_ofText_eq .start, List.map_map]
  exact List.map_congr_left fun c _ => unplaced_unplaced c

end Component

open Component

/-! ## Closed texts -/

/-- A text in which every string, address, comment and block is closed and every closing curly bracket
has a block to close, and which does not end in a backslash.  It may be malformed otherwise. -/
structure ClosedText (text : List Char) : Prop where
  ended : ∀ t ∈ Token.row text, t.IsEnded
  /-- A block that is not closed runs to the end of the text, and so do those around it. -/
  blocks : ∀ c ∈ ofTokens (Token.row text), c.isClosed = true
  matched : ∀ c ∈ ofTokens (Token.row text), c.isLeaf (.closing .curly) = false
  last : text.getLast? ≠ some '\\'

namespace ClosedText

variable {text : List Char} (h : ClosedText text)

include h

theorem row_append {x : Char} (hx : Token.Stop x) (s : List Char) :
    Token.row (text ++ x :: s) = Token.row text ++ Token.row (x :: s) :=
  Token.row_append_of_isEnded hx h.last h.ended s

theorem foldl_push :
    (Token.row text).foldl Nesting.push {} = ⟨(ofTokens (Token.row text)).reverse, []⟩ :=
  foldl_push_of_isClosed h.blocks

/-- The components of a closed text are the contents of an open block that it stands in. -/
theorem foldl_push_inside {p : Pending} (hp : p.opener.kind = .opening .curly)
    (ps : List Pending) : (Token.row text).foldl Nesting.push ⟨[], p :: ps⟩ =
      ⟨(ofTokens (Token.row text)).reverse, p :: ps⟩ := by
  have hinside := Nesting.foldl_push_inside (n := {}) hp ps h.matched
  rw [h.foldl_push] at hinside
  exact hinside

end ClosedText

end Restyle.Css
