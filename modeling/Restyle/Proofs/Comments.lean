import Restyle.Proofs.TokenEnds

/-!
# What comments say

A comment ends with the first `*/` behind its opening mark, or with the text if there is none.  What
stands between the marks therefore holds no `*/` (`not_commentEnd_infix_commentBody`), whether the
comment is closed or not.
-/

namespace Restyle.Css.Token

/-- The characters of a comment behind its opening mark: a text without an end mark in it, and the end
mark if there is one. -/
theorem exists_take_commentLength (cs : List Char) : ∃ body, ¬commentEnd <:+: body ∧
    (cs.take (commentLength cs) = body ++ commentEnd ∨ cs.take (commentLength cs) = body) := by
  fun_induction commentLength cs with
  | case1 => exact ⟨[], by decide, .inr rfl⟩
  | case2 cs => exact ⟨[], by decide, .inl rfl⟩
  | case3 c cs hopen ih =>
    obtain ⟨body, hbody, htake⟩ := ih
    rw [Nat.add_comm, List.take_succ_cons]
    refine ⟨c :: body, fun hin => ?_, htake.imp (congrArg (c :: ·)) (congrArg (c :: ·))⟩
    rcases List.infix_cons_iff.1 hin with ⟨tail, hprefix⟩ | hin
    · -- the end mark would start with `c`, where the comment has been seen to go on
      obtain ⟨rfl, rfl⟩ : '*' = c ∧ '/' :: tail = body := List.cons.inj hprefix
      cases cs with
      | nil => rcases htake with htake | htake <;> cases htake
      | cons d cs =>
        have hd : '/' = d := by
          cases hlength : commentLength (d :: cs) with
          | zero => rw [hlength] at htake; rcases htake with htake | htake <;> cases htake
          | succ n =>
            rw [hlength, List.take_succ_cons] at htake
            rcases htake with htake | htake <;> exact (List.cons.inj htake).1.symm
        exact hopen cs rfl (by rw [hd])
    · exact hbody hin

/-- What the kind of a comment says about the text that it is scanned from. -/
def CommentShape (c : Char) (cs : List Char) (scanned : Kind × Nat) : Prop :=
  scanned.1 = .comment → ∃ rest, c = '/' ∧ cs = '*' :: rest ∧ scanned.2 = 1 + commentLength rest

theorem commentShape_of_isWord {c : Char} {cs : List Char} {scanned : Kind × Nat}
    (h : scanned.1.isWord = true) : CommentShape c cs scanned := by
  intro hkind
  rw [hkind] at h
  cases h

theorem singleKind_ne_comment (c : Char) : singleKind c ≠ .comment := by
  unfold singleKind
  split <;> decide

/-- Only a comment is scanned as one. -/
theorem commentShape_scan (c : Char) (cs : List Char) : CommentShape c cs (scan c cs) := by
  have other : ∀ {kind : Kind} {n : Nat}, kind ≠ .comment → CommentShape c cs (kind, n) :=
    fun hkind h => absurd h hkind
  unfold scan
  dsimp only
  refine iteInduction (fun _ => other (by decide)) fun _ => ?_
  refine iteInduction (fun _ => commentShape_of_isWord (isWord_scanString _ _)) fun _ => ?_
  refine iteInduction (fun _ => ?_) fun _ => ?_
  · exact iteInduction (fun _ => other (by decide)) fun _ => other (by decide)
  refine iteInduction (fun _ => ?_) fun _ => ?_
  · exact iteInduction (fun _ => other (by decide)) fun _ => other (by decide)
  refine iteInduction (fun hopen _ => ?_) fun _ => ?_
  · rw [Bool.and_eq_true, beq_iff_eq, beq_iff_eq, List.head?_eq_some_iff] at hopen
    obtain ⟨rfl, rest, rfl⟩ := hopen
    exact ⟨rest, rfl, rfl, rfl⟩
  refine iteInduction (fun _ => commentShape_of_isWord (isWord_scanUnit _ _)) fun _ => ?_
  refine iteInduction (fun _ => other (by decide)) fun _ => ?_
  refine iteInduction (fun _ => other (by decide)) fun _ => ?_
  refine iteInduction (fun _ => commentShape_of_isWord (isWord_scanIdent _)) fun _ => ?_
  exact iteInduction (fun _ => other (by decide)) fun _ => other (singleKind_ne_comment c)

theorem commentBody_closed (body : List Char) :
    commentBody ('/' :: '*' :: (body ++ commentEnd)) = body := by
  have hends : endsComment ('/' :: '*' :: (body ++ commentEnd)) = true := by
    rw [endsComment, Bool.and_eq_true, decide_eq_true_eq, List.isSuffixOf_iff_suffix]
    exact ⟨by simp [commentEnd], ⟨'/' :: '*' :: body, rfl⟩⟩
  rw [commentBody, if_pos hends]
  simp [commentEnd]

theorem commentBody_open {body : List Char} (h : ¬commentEnd <:+: body) :
    commentBody ('/' :: '*' :: body) = body := by
  have hends : endsComment ('/' :: '*' :: body) = false := by
    rw [Bool.eq_false_iff]
    intro hends
    rw [endsComment, Bool.and_eq_true, decide_eq_true_eq, List.isSuffixOf_iff_suffix] at hends
    obtain ⟨hlength, hsuffix⟩ := hends
    -- the opening mark cannot lend a character to an end mark
    have behind : commentEnd <:+ body :=
      List.suffix_of_suffix_length_le hsuffix ⟨['/', '*'], rfl⟩ (by simpa [commentEnd] using hlength)
    exact h behind.isInfix
  simp [commentBody, hends]

/-- What a comment says holds no end mark. -/
theorem not_commentEnd_infix_commentBody {loc : Location} {cs : List Char} {t : Token}
    (h : t ∈ lex loc cs) (hkind : t.kind = .comment) : ¬commentEnd <:+: commentBody t.text := by
  revert h
  fun_induction lex loc cs with
  | case1 => exact fun h => absurd h List.not_mem_nil
  | case2 loc c cs kind n hscan text ih =>
    intro h
    rcases List.mem_cons.1 h with rfl | h
    · obtain ⟨rest, rfl, rfl, hlength⟩ := commentShape_scan c cs (by rw [hscan]; exact hkind)
      have hn : n = 1 + commentLength rest := by rw [← hlength, hscan]
      obtain ⟨body, hbody, htake⟩ := exists_take_commentLength rest
      change ¬commentEnd <:+: commentBody ('/' :: ('*' :: rest).take n)
      rw [hn, Nat.add_comm, List.take_succ_cons]
      rcases htake with htake | htake
      · rwa [htake, commentBody_closed]
      · rwa [htake, commentBody_open hbody]
    · exact ih h

end Restyle.Css.Token
