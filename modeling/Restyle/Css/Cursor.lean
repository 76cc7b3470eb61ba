import Restyle.Css.Component

/-!
# Reading token by token

A cursor stands in a row of tokens that ends at a closing bracket of its own, its barrier, or else
with the text.  When it has read an opening bracket it stands inside the block, and it passes over
what is left of that with the next token it reads.

To drain a cursor is to read on until there is no next token (`drain_of_next?`,
`drain_of_next?_eq_none`).  Then there is none however often one asks, and so a cursor that has been
drained is exhausted (`isExhausted_drain`), wherever it stood before.
-/

namespace Restyle.Css

/-- What is left behind the bracket that closes the outermost of some open blocks, given innermost
first.  A closing bracket that does not match the innermost one is passed over. -/
def passOver : List Bracket → List Token → List Token
  | [], ts => ts
  | _ :: _, [] => []
  | b :: bs, t :: ts =>
    if t.kind.closes? = some b then passOver bs ts
    else match t.kind.opens? with
      | some inner => passOver (inner :: b :: bs) ts
      | none => passOver (b :: bs) ts

@[simp] theorem passOver_nil (ts : List Token) : passOver [] ts = ts := by
  rw [passOver]

/-- Whether a token is the closing bracket that ends a row. -/
def Token.isBarrier (barrier : Option Bracket) (t : Token) : Bool :=
  t.kind.closes?.isSome && t.kind.closes? == barrier

/-- A place in a row of tokens. -/
structure Cursor where
  /-- The tokens from here to the end of the text. -/
  rest : List Token
  /-- The block that has been opened by the token in front. -/
  opened : Option Bracket := none
  /-- The block whose closing bracket ends the row. -/
  barrier : Option Bracket := none
  deriving Repr, DecidableEq

namespace Cursor

/-- A cursor at the start of the inside of a block in curly brackets. -/
def inside (contents : List Component) : Cursor :=
  { rest := Component.tokensOf contents, barrier := some .curly }

/-- Passes over the block that has been opened. -/
def settle (c : Cursor) : Cursor :=
  { c with rest := passOver c.opened.toList c.rest, opened := none }

/-- The next token and the cursor behind it, if the row goes on. -/
def next? (c : Cursor) : Option (Token × Cursor) :=
  match c.settle.rest with
  | [] => none
  | t :: ts => if t.isBarrier c.barrier then none else some (t, ⟨ts, t.kind.opens?, c.barrier⟩)

/-- What is left at the end of a row that is read on to from inside some open blocks. -/
def endOfRow (barrier : Option Bracket) : List Bracket → List Token → List Token
  | _, [] => []
  | [], t :: ts =>
    if t.isBarrier barrier then t :: ts else endOfRow barrier t.kind.opens?.toList ts
  | b :: bs, t :: ts =>
    if t.kind.closes? = some b then endOfRow barrier bs ts
    else match t.kind.opens? with
      | some inner => endOfRow barrier (inner :: b :: bs) ts
      | none => endOfRow barrier (b :: bs) ts

/-- Reads on until there is no next token. -/
def drain (c : Cursor) : Cursor :=
  { c with rest := endOfRow c.barrier c.opened.toList c.rest, opened := none }

/-- Passes over white space and comments. -/
def skipBlank (c : Cursor) : Cursor :=
  { c.settle with rest := c.settle.rest.dropWhile fun t =>
      t.kind == .whiteSpace || t.kind == .comment }

/-- Whether nothing but white space and comments is left of the row. -/
def isExhausted (c : Cursor) : Bool :=
  c.skipBlank.next?.isNone

/-! ## Draining is reading on -/

theorem endOfRow_passOver (barrier : Option Bracket) (bs : List Bracket) (ts : List Token) :
    endOfRow barrier [] (passOver bs ts) = endOfRow barrier bs ts := by
  fun_induction passOver bs ts with
  | case1 => rfl
  | case2 => rfl
  | case3 b bs t ts hcloses ih => rw [ih, endOfRow, if_pos hcloses]
  | case4 b bs t ts hcloses inner hopens ih => simp only [ih, endOfRow, hcloses, hopens, if_false]
  | case5 b bs t ts hcloses hopens ih => simp only [ih, endOfRow, hcloses, hopens, if_false]

theorem drain_rest (c : Cursor) : c.drain.rest = endOfRow c.barrier [] c.settle.rest :=
  (endOfRow_passOver c.barrier c.opened.toList c.rest).symm

theorem endOfRow_of_isBarrier {barrier : Option Bracket} {t : Token}
    (h : t.isBarrier barrier = true) (ts : List Token) :
    endOfRow barrier [] (t :: ts) = t :: ts := by
  rw [endOfRow, if_pos h]

/-- Draining reads the next token and goes on from there. -/
theorem drain_of_next? {c d : Cursor} {t : Token} (h : c.next? = some (t, d)) :
    c.drain = d.drain := by
  have hrest := drain_rest c
  unfold next? at h
  split at h
  · cases h
  · next t' ts hsettled =>
    split at h
    · cases h
    · next hbarrier =>
      obtain ⟨-, rfl⟩ := Prod.mk.inj (Option.some.inj h)
      rw [hsettled, endOfRow, if_neg hbarrier] at hrest
      exact congrArg (fun rest => Cursor.mk rest none c.barrier) hrest

/-- Draining stops where there is no next token. -/
theorem drain_of_next?_eq_none {c : Cursor} (h : c.next? = none) : c.drain = c.settle := by
  have hrest := drain_rest c
  unfold next? at h
  split at h
  · next hsettled =>
    rw [hsettled, endOfRow, ← hsettled] at hrest
    exact congrArg (fun rest => Cursor.mk rest none c.barrier) hrest
  · next t ts hsettled =>
    split at h
    · next hbarrier =>
      rw [hsettled, endOfRow_of_isBarrier hbarrier, ← hsettled] at hrest
      exact congrArg (fun rest => Cursor.mk rest none c.barrier) hrest
    · cases h

/-! ## The end of a row -/

theorem endOfRow_eq_nil_or (barrier : Option Bracket) (bs : List Bracket) (ts : List Token) :
    endOfRow barrier bs ts = [] ∨
      ∃ t us, endOfRow barrier bs ts = t :: us ∧ t.isBarrier barrier = true := by
  fun_induction endOfRow barrier bs ts with
  | case1 => exact .inl rfl
  | case2 t ts hbarrier => exact .inr ⟨t, ts, rfl, hbarrier⟩
  | case3 t ts hbarrier ih => exact ih
  | case4 b bs t ts hcloses ih => exact ih
  | case5 b bs t ts hcloses inner hopens ih => exact ih
  | case6 b bs t ts hcloses hopens ih => exact ih

/-- A closing bracket is neither white space nor a comment. -/
theorem not_isBlank_of_isBarrier {barrier : Option Bracket} {t : Token}
    (h : t.isBarrier barrier = true) :
    (t.kind == .whiteSpace || t.kind == .comment) = false := by
  unfold Token.isBarrier at h
  cases hkind : t.kind with
  | closing b => rfl
  | _ => rw [hkind] at h; cases h

/-- A drained cursor is exhausted. -/
theorem isExhausted_drain (c : Cursor) : c.drain.isExhausted = true := by
  have hsettled : c.drain.settle = c.drain := by
    simp only [settle, drain, Option.toList_none, passOver_nil]
  unfold isExhausted skipBlank
  rw [hsettled]
  rcases endOfRow_eq_nil_or c.barrier c.opened.toList c.rest with hnil | ⟨t, ts, hcons, hbarrier⟩
  · rw [show c.drain.rest = [] from hnil]
    rfl
  · rw [show c.drain.rest = t :: ts from hcons, List.dropWhile_cons,
      not_isBlank_of_isBarrier hbarrier]
    simp only [Bool.false_eq_true, if_false, next?, settle, drain, Option.toList_none, passOver_nil,
      hbarrier, if_true, Option.isNone_none]

end Cursor

end Restyle.Css
