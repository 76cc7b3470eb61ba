import Restyle.Proofs.LineEnds

/-!
# Places in a text

A place is in a text if it is on one of its lines, and no further right than just behind the last
character of that line (`Location.IsIn`).  A reader that goes through the text from its start is always
in it, as long as it does not stand within a line end (`isIn_advance`), and it only goes on
(`Location.le_advance`).  Since no token ends within a line end, the places where tokens start and end
follow each other through the text (`Token.runs_lex`).
-/

namespace Restyle.Css

/-! ## Lines -/

/-- The lines of a text.  A carriage return with a line feed behind it is one line end. -/
def linesOf : List Char → List (List Char)
  | [] => [[]]
  | '\r' :: '\n' :: cs => [] :: linesOf cs
  | c :: cs =>
    if isNewline c then [] :: linesOf cs
    else match linesOf cs with
      | [] => [[c]]
      | line :: lines => (c :: line) :: lines

/-- How many UTF-16 code units a text takes. -/
def utf16Length : List Char → Nat
  | [] => 0
  | c :: cs => utf16Width c + utf16Length cs

theorem linesOf_pair (cs : List Char) : linesOf ('\r' :: '\n' :: cs) = [] :: linesOf cs := by
  rw [linesOf]

theorem linesOf_newline {c : Char} (h : isNewline c = true) {cs : List Char}
    (hpair : c = '\r' → cs.head? ≠ some '\n') : linesOf (c :: cs) = [] :: linesOf cs := by
  rw [linesOf.eq_3 c cs fun ds hc hcs => hpair hc (by rw [hcs]; rfl), if_pos h]

/-- A character that ends no line stands at the front of the first one. -/
theorem linesOf_cons {c : Char} (h : isNewline c = false) {cs line : List Char}
    {lines : List (List Char)} (hlines : linesOf cs = line :: lines) :
    linesOf (c :: cs) = (c :: line) :: lines := by
  have hpair : ∀ ds, c = '\r' → cs = '\n' :: ds → False := by
    rintro ds rfl -
    cases h
  rw [linesOf.eq_3 c cs hpair, h, hlines]
  rfl

theorem linesOf_ne_nil (cs : List Char) : linesOf cs ≠ [] := by
  fun_cases linesOf cs <;> exact List.cons_ne_nil _ _

/-! ## Places in their order -/

namespace Location

/-- A place is not behind another if it is on an earlier line, or no further right on the same one. -/
instance : LE Location :=
  ⟨fun a b => a.line < b.line ∨ a.line = b.line ∧ a.column ≤ b.column⟩

theorem le_iff {a b : Location} : a ≤ b ↔ a.line < b.line ∨ a.line = b.line ∧ a.column ≤ b.column :=
  Iff.rfl

theorem le_refl (a : Location) : a ≤ a :=
  .inr ⟨rfl, Nat.le_refl _⟩

theorem le_trans {a b c : Location} (h : a ≤ b) (h' : b ≤ c) : a ≤ c := by
  rw [le_iff] at *
  omega

/-- Reading goes on. -/
theorem le_advance (loc : Location) (cs : List Char) : loc ≤ loc.advance cs := by
  fun_induction advance loc cs with
  | case1 => exact le_refl _
  | case2 loc cs ih => exact le_trans (.inl (Nat.lt_succ_self _)) ih
  | case3 loc c cs hpair hnewline ih => exact le_trans (.inl (Nat.lt_succ_self _)) ih
  | case4 loc c cs hpair hnewline ih =>
    exact le_trans (b := ⟨loc.line, loc.column + utf16Width c⟩)
      (.inr ⟨rfl, Nat.le_add_right _ _⟩) ih

theorem advance_cons {c : Char} {cs : List Char} (hpair : c = '\r' → cs.head? ≠ some '\n')
    (loc : Location) : loc.advance (c :: cs) =
      if isNewline c then loc.nextLine.advance cs
      else advance ⟨loc.line, loc.column + utf16Width c⟩ cs := by
  rw [advance.eq_3 loc c cs fun ds hc hcs => hpair hc (by rw [hcs]; rfl)]

/-! ## Places of a text -/

/-- A place on a line of a text, and not behind the end of that line. -/
structure IsIn (loc : Location) (text : List Char) : Prop where
  line_pos : 1 ≤ loc.line
  line_le : loc.line ≤ (linesOf text).length
  column_pos : 1 ≤ loc.column
  column_le : ∀ line ∈ (linesOf text)[loc.line - 1]?, loc.column ≤ utf16Length line + 1

/-- A place that is `k` lines below another from which a text is read, on the given line of it. -/
structure Reaches (base : Location) (text : List Char) (loc : Location) (k : Nat) (line : List Char) :
    Prop where
  line_eq : loc.line = base.line + k
  mem : (linesOf text)[k]? = some line
  first : k = 0 → base.column ≤ loc.column ∧ loc.column ≤ base.column + utf16Length line
  later : k ≠ 0 → 1 ≤ loc.column ∧ loc.column ≤ utf16Length line + 1

theorem Reaches.below {base loc : Location} {text text' line : List Char} {k : Nat}
    (h : Reaches base.nextLine text loc k line) (hlines : linesOf text' = [] :: linesOf text) :
    Reaches base text' loc (k + 1) line where
  line_eq := by
    have hline : base.nextLine.line = base.line + 1 := rfl
    rw [h.line_eq, hline]
    omega
  mem := by
    rw [hlines, List.getElem?_cons_succ]
    exact h.mem
  first := nofun
  later _ := by
    rcases Nat.eq_zero_or_pos k with hzero | hpos
    · have hcolumn : base.nextLine.column = 1 := rfl
      have hfirst := h.first hzero
      omega
    · exact h.later (by omega)

/-- What is reached behind one more character of the same line. -/
theorem Reaches.behind {base loc : Location} {text line : List Char} {k : Nat} {c : Char}
    (h : Reaches ⟨base.line, base.column + utf16Width c⟩ text loc k line)
    (hc : isNewline c = false) : ∃ line', Reaches base (c :: text) loc k line' := by
  obtain ⟨first, lines, hlines⟩ := List.exists_cons_of_ne_nil (linesOf_ne_nil text)
  have hcons := linesOf_cons hc hlines
  have hmem := h.mem
  rw [hlines] at hmem
  cases k with
  | zero =>
    obtain rfl := Option.some.inj hmem
    refine ⟨c :: first, h.line_eq, by rw [hcons]; rfl, fun _ => ?_, fun hzero => absurd rfl hzero⟩
    have hfirst := h.first rfl
    rw [utf16Length]
    dsimp only at hfirst
    omega
  | succ k => exact ⟨line, h.line_eq, by rw [hcons]; exact hmem, nofun, h.later⟩

/-- Where a carriage return is no part of a pair, it is none with more text behind it. -/
theorem head?_append_ne {c : Char} {cs rest : List Char} (h : KeepsLineEnd (c :: cs) rest)
    (hpair : ∀ ds, c = '\r' → cs = '\n' :: ds → False) :
    c = '\r' → (cs ++ rest).head? ≠ some '\n' := by
  rintro rfl
  cases cs with
  | nil => exact h rfl
  | cons d ds =>
    intro hhead
    exact hpair ds rfl (by rw [Option.some.inj hhead])

/-- What has been read is in the text, unless what is left shares a line end with it. -/
theorem exists_reaches (base : Location) (front : List Char) {rest : List Char}
    (h : KeepsLineEnd front rest) :
    ∃ k line, Reaches base (front ++ rest) (base.advance front) k line := by
  fun_induction advance base front with
  | case1 base =>
    obtain ⟨line, lines, hlines⟩ := List.exists_cons_of_ne_nil (linesOf_ne_nil rest)
    exact ⟨0, line, rfl, by rw [List.nil_append, hlines]; rfl,
      fun _ => ⟨Nat.le_refl _, Nat.le_add_right _ _⟩, fun hzero => absurd rfl hzero⟩
  | case2 base cs ih =>
    obtain ⟨k, line, hreaches⟩ := ih h.tail.tail
    exact ⟨k + 1, line, hreaches.below (linesOf_pair _)⟩
  | case3 base c cs hpair hnewline ih =>
    obtain ⟨k, line, hreaches⟩ := ih h.tail
    exact ⟨k + 1, line, hreaches.below (linesOf_newline hnewline (head?_append_ne h hpair))⟩
  | case4 base c cs hpair hnewline ih =>
    obtain ⟨k, line, hreaches⟩ := ih h.tail
    exact ⟨k, hreaches.behind (Bool.eq_false_iff.2 hnewline)⟩

/-- A reader that stands nowhere within a line end stands in the text. -/
theorem isIn_advance {front rest : List Char} (h : KeepsLineEnd front rest) :
    (start.advance front).IsIn (front ++ rest) := by
  obtain ⟨k, line, hreaches⟩ := exists_reaches start front h
  have hline : (start.advance front).line = 1 + k := hreaches.line_eq
  have hcolumn : 1 ≤ (start.advance front).column ∧
      (start.advance front).column ≤ utf16Length line + 1 := by
    rcases Nat.eq_zero_or_pos k with hzero | hpos
    · have hstart : start.column = 1 := rfl
      have hfirst := hreaches.first hzero
      omega
    · exact hreaches.later (by omega)
  have hk : k < (linesOf (front ++ rest)).length := (List.getElem?_eq_some_iff.1 hreaches.mem).1
  refine ⟨by omega, by omega, hcolumn.1, ?_⟩
  intro line' hline'
  rw [hline, Nat.add_sub_cancel_left, hreaches.mem] at hline'
  obtain rfl := Option.some.inj hline'
  exact hcolumn.2

/-- Reading two texts one after the other is reading both, unless they share a line end. -/
theorem advance_append (base : Location) (front : List Char) {rest : List Char}
    (h : KeepsLineEnd front rest) : base.advance (front ++ rest) = (base.advance front).advance rest := by
  fun_induction advance base front with
  | case1 base => rfl
  | case2 base cs ih =>
    rw [List.cons_append, List.cons_append, advance]
    exact ih h.tail.tail
  | case3 base c cs hpair hnewline ih =>
    rw [List.cons_append, advance_cons (head?_append_ne h hpair), if_pos hnewline]
    exact ih h.tail
  | case4 base c cs hpair hnewline ih =>
    rw [List.cons_append, advance_cons (head?_append_ne h hpair), if_neg hnewline]
    exact ih h.tail

end Location

/-! ## Tokens -/

namespace Token

/-- Tokens from one place to another, each where the one in front of it stops.  `P` holds of all the
places on the way. -/
inductive Runs (P : Location → Prop) : Location → List Token → Location → Prop
  | nil {loc : Location} (h : P loc) : Runs P loc [] loc
  | cons {t : Token} {ts : List Token} {hi : Location} (h : P t.start) (rest : Runs P t.stop ts hi) :
    Runs P t.start (t :: ts) hi

theorem Runs.of_start {P : Location → Prop} {lo hi : Location} {ts : List Token}
    (h : Runs P lo ts hi) : P lo := by
  cases h <;> assumption

theorem keepsLineEnd_scan {c : Char} {cs : List Char} {kind : Kind} {n : Nat}
    (h : scan c cs = (kind, n)) : KeepsLineEnd (c :: cs.take n) (cs.drop n) := by
  have hkept := keptAt_scan c cs
  rwa [h, Nat.add_comm, KeptAt, List.take_succ_cons, List.drop_succ_cons] at hkept

/-- The tokens of what is left of a text run from there to its end. -/
theorem runs_lex {loc : Location} {front rest : List Char} (hloc : loc = Location.start.advance front)
    (h : KeepsLineEnd front rest) : Runs (·.IsIn (front ++ rest)) loc (lex loc rest)
      (Location.start.advance (front ++ rest)) := by
  revert front
  fun_induction lex loc rest
  case case1 loc =>
    intro front hloc h
    have hin := Location.isIn_advance h
    rw [List.append_nil] at hin ⊢
    rw [hloc]
    exact .nil hin
  case case2 loc c cs kind n hscan text ih =>
    intro front hloc h
    have hsplit : (front ++ text) ++ cs.drop n = front ++ c :: cs := by
      rw [List.append_assoc, List.cons_append, List.take_append_drop]
    have hkeeps : KeepsLineEnd (front ++ text) (cs.drop n) := by
      intro hlast
      rw [List.getLast?_append, List.getLast?_cons, Option.some_or] at hlast
      exact keepsLineEnd_scan hscan (by rw [List.getLast?_cons, hlast])
    have hnext : loc.advance text = Location.start.advance (front ++ text) := by
      have htext : KeepsLineEnd front text := h
      rw [Location.advance_append Location.start front htext, hloc]
    have hrest := ih hnext hkeeps
    rw [hsplit] at hrest
    have hin := Location.isIn_advance h
    rw [← hloc] at hin
    exact .cons (t := ⟨kind, text, loc⟩) hin hrest

end Token

end Restyle.Css
