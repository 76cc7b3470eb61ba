import Restyle.Json.Printer
import Restyle.Proofs.JsonNumbers

/-!
# Layouts of JSON texts

The compact and the pretty text of a value differ in white space only.  `Layout` says which white space
stands between the parts, and both printers are one printer with different layouts
(`compactText_eq`, `prettyText_eq`).

The scalars in a text are read back from their own part of it: strings character by character
(`readString_text`), numbers as numerals, and all of them in front of whatever may stand behind a value
(`ReadsScalar`).
-/

namespace Restyle.Json

open Number (Numeral)

/-! ## White space -/

theorem skipSpace_blanks {blanks : List Char} (h : ∀ c ∈ blanks, isSpace c = true) (cs : List Char) :
    skipSpace (blanks ++ cs) = skipSpace cs := by
  unfold skipSpace
  exact List.dropWhile_append_of_pos h

theorem skipSpace_cons {c : Char} (h : isSpace c = false) (cs : List Char) :
    skipSpace (c :: cs) = c :: cs := by
  rw [skipSpace, List.dropWhile_cons, h]
  rfl

/-- White space and then something else. -/
theorem skipSpace_blanks_cons {blanks : List Char} (h : ∀ c ∈ blanks, isSpace c = true) {c : Char}
    (hc : isSpace c = false) (cs : List Char) : skipSpace (blanks ++ c :: cs) = c :: cs := by
  rw [skipSpace_blanks h, skipSpace_cons hc]

theorem skipSpace_skipSpace (cs : List Char) : skipSpace (skipSpace cs) = skipSpace cs := by
  induction cs with
  | nil => rfl
  | cons c cs ih =>
    cases h : isSpace c with
    | true => simpa [skipSpace, h] using ih
    | false => rw [skipSpace_cons h, skipSpace_cons h]

/-! ## Strings -/

theorem hexDigit?_digitChar {n : Nat} (h : n < 16) : hexDigit? (Nat.digitChar n) = some n := by
  have hall : ∀ m : Fin 16, hexDigit? (Nat.digitChar m) = some m.val := by decide
  exact hall ⟨n, h⟩

/-- The escape of a control character is read back. -/
theorem readEscape_control {c : Char} (h : c.toNat < 0x20) (rest : List Char) :
    readEscape ('u' :: '0' :: '0' :: Nat.digitChar (c.toNat / 16) ::
      Nat.digitChar (c.toNat % 16) :: rest) = .ok (c, 5) := by
  have hhigh := hexDigit?_digitChar (n := c.toNat / 16) (by omega)
  have hlow := hexDigit?_digitChar (n := c.toNat % 16) (by omega)
  have hzero : hexDigit? '0' = some 0 := by decide
  have hhex : readHex ('0' :: '0' :: Nat.digitChar (c.toNat / 16) ::
      Nat.digitChar (c.toNat % 16) :: rest) = .ok c.toNat := by
    simp only [readHex, List.take_succ_cons, List.take_zero, List.mapM_cons, List.mapM_nil, hzero,
      hhigh, hlow, pure, bind, Option.bind_some]
    exact congrArg Except.ok (by omega)
  have htrail : isTrail c.toNat = false := by simp [isTrail]; omega
  have hlead : isLead c.toNat = false := by simp [isLead]; omega
  have hescape : simpleEscape? 'u' = none := rfl
  rw [readEscape, hescape]
  dsimp only
  rw [if_pos (by decide), readUnicode, hhex]
  simp only [bind, Except.bind, htrail, hlead, Bool.false_eq_true, if_false]
  rw [Char.ofNat_toNat]
  rfl

theorem readString_escape {cs : List Char} {d : Char} {n : Nat} (h : readEscape cs = .ok (d, n)) :
    readString ('\\' :: cs) =
      (readString (cs.drop n)).map fun r => (d :: r.1, 1 + n + r.2) := by
  rw [readString, if_neg (by decide), if_pos (by decide), h]
  rfl

/-- A character is read back as it has been written. -/
theorem readString_escapeChar (c : Char) (rest : List Char) :
    readString (escapeChar c ++ rest) =
      (readString rest).map fun r => (c :: r.1, (escapeChar c).length + r.2) := by
  unfold escapeChar
  split
  · next h =>
    rcases Bool.or_eq_true_iff.1 h with h | h <;> obtain rfl := eq_of_beq h <;>
      exact readString_escape rfl
  split
  · next h => obtain rfl := eq_of_beq h; exact readString_escape rfl
  split
  · next h => obtain rfl := eq_of_beq h; exact readString_escape rfl
  split
  · next h => obtain rfl := eq_of_beq h; exact readString_escape rfl
  split
  · next h => obtain rfl := eq_of_beq h; exact readString_escape rfl
  split
  · next h => obtain rfl := eq_of_beq h; exact readString_escape rfl
  split
  · next h => exact readString_escape (readEscape_control h rest)
  · next hplain _ _ _ _ _ hcontrol =>
    obtain ⟨hquote, hslash⟩ := Bool.or_eq_false_iff.1 (Bool.eq_false_iff.2 hplain)
    rw [List.singleton_append, readString, if_neg (by simpa using hquote),
      if_neg (by simpa using hslash), if_neg hcontrol]
    rfl

/-- A string is read back from its text. -/
theorem readString_text (cs rest : List Char) :
    readString (cs.flatMap escapeChar ++ '"' :: rest) =
      .ok (cs, (cs.flatMap escapeChar).length + 1) := by
  induction cs with
  | nil => rw [List.flatMap_nil, List.nil_append, readString, if_pos (by decide)]; rfl
  | cons c cs ih =>
    rw [List.flatMap_cons, List.append_assoc, readString_escapeChar, ih, List.length_append,
      Nat.add_assoc]
    rfl

/-! ## Scalars -/

/-- A text from which a scalar is read, and which starts like one. -/
def ReadsScalar (text : List Char) (v : Json) : Prop :=
  ∃ c cs, text = c :: cs ∧ c ∉ [' ', '\n', '\t', '\r', '[', ']', '\x7b', '\x7d'] ∧
    ∀ rest, IsValueEnd rest → readScalar c (cs ++ rest) = .ok (v, cs.length)

theorem readsScalar_number {n : Numeral} (htidy : n.IsTidy) {v : Json}
    (h : ∀ rest, IsValueEnd rest → readNumber (n.text ++ rest) = .ok (v, n.text.length)) :
    ReadsScalar n.text v := by
  obtain ⟨c, cs, hcons, hc⟩ : ∃ c cs, n.text = c :: cs ∧ (c = '-' ∨ c.isDigit = true) := by
    obtain ⟨d, ds, hwhole⟩ := List.exists_cons_of_ne_nil htidy.whole
    have hd : d.isDigit = true := n.isDigits_whole d (hwhole ▸ List.mem_cons_self)
    have hsign := n.isSign
    simp only [Number.IsSign, List.mem_cons, List.not_mem_nil, or_false] at hsign
    rw [Numeral.text, Numeral.unsigned, hwhole]
    rcases hsign with hsign | hsign | hsign
    · rw [hsign]; exact ⟨d, _, rfl, .inr hd⟩
    · exact absurd hsign htidy.sign
    · rw [hsign]; exact ⟨'-', _, rfl, .inl rfl⟩
  have hne : ∀ d ∈ [' ', '\n', '\t', '\r', '[', ']', '\x7b', '\x7d', 'n', 't', 'f', '"'], c ≠ d := by
    rintro d hd rfl
    rcases hc with rfl | hc
    · exact absurd hd (by simp)
    · have hnone : ∀ e ∈ [' ', '\n', '\t', '\r', '[', ']', '\x7b', '\x7d', 'n', 't', 'f', '"'],
          e.isDigit = false := by simp
      exact Bool.false_ne_true ((hnone c hd).symm.trans hc)
  have hnumber : (c == '-' || c.isDigit) = true := by
    rcases hc with rfl | hc
    · rfl
    · rw [hc, Bool.or_true]
  refine ⟨c, cs, hcons, fun hmem => hne c (by simp at hmem ⊢; tauto) rfl, fun rest hend => ?_⟩
  have hread := h rest hend
  rw [hcons, List.cons_append] at hread
  rw [readScalar, if_neg (by simpa using hne 'n' (by simp)), if_neg (by simpa using hne 't' (by simp)),
    if_neg (by simpa using hne 'f' (by simp)), if_neg (by simpa using hne '"' (by simp)),
    if_pos hnumber, hread]
  rfl

theorem readsScalar_double {n : Double} (h : n.isFinite = true) :
    ReadsScalar (doubleText n) (.double n) := by
  obtain ⟨m, htext, htidy⟩ : ∃ m : Numeral, m.text = doubleText n ∧ m.IsTidy := by
    cases n with
    | nan => cases h
    | infinite => cases h
    | finite negative code =>
      obtain ⟨m, htext, -, htidy, -⟩ := exists_doubleText negative code
      exact ⟨m, htext, htidy⟩
  rw [← htext]
  exact readsScalar_number htidy fun rest hend => by rw [htext]; exact readNumber_doubleText h hend

theorem readsScalar_integer {i : Int} (hleast : -(2 ^ 63) ≤ i) (hgreatest : i < 2 ^ 64) :
    ReadsScalar (integerText i) (.integer i) := by
  rw [← text_integerNumeral]
  exact readsScalar_number (isTidy_integerNumeral i) fun rest hend => by
    rw [text_integerNumeral]
    exact readNumber_integerText hleast hgreatest hend

theorem readsScalar_string (s : String) : ReadsScalar (stringText s) (.string s) := by
  refine ⟨'"', s.toList.flatMap escapeChar ++ ['"'], rfl, by decide, fun rest _ => ?_⟩
  have hread := readString_text s.toList rest
  rw [List.append_assoc, List.singleton_append, readScalar, if_neg (by decide), if_neg (by decide),
    if_neg (by decide), if_pos (by decide), hread, List.length_append]
  simp only [bind, Except.bind, String.ofList_toList]
  rfl

theorem readsScalar_null : ReadsScalar ['n', 'u', 'l', 'l'] .null :=
  ⟨'n', _, rfl, by decide, fun _ _ => rfl⟩

theorem readsScalar_boolean (b : Bool) :
    ReadsScalar (if b then ['t', 'r', 'u', 'e'] else ['f', 'a', 'l', 's', 'e']) (.boolean b) := by
  cases b with
  | false => exact ⟨'f', _, rfl, by decide, fun _ _ => rfl⟩
  | true => exact ⟨'t', _, rfl, by decide, fun _ _ => rfl⟩

/-! ## Layouts -/

/-- The white space between the parts of a text: at the start of a line at some depth, and behind the
colon of a member. -/
structure Layout where
  line : Nat → List Char
  gap : List Char
  isSpace_line : ∀ depth, ∀ c ∈ line depth, isSpace c = true
  isSpace_gap : ∀ c ∈ gap, isSpace c = true

namespace Layout

def compact : Layout where
  line _ := []
  gap := []
  isSpace_line _ := List.forall_mem_nil _
  isSpace_gap := List.forall_mem_nil _

def pretty : Layout where
  line := newline
  gap := [' ']
  isSpace_line depth c hc := by
    rcases List.mem_cons.1 hc with rfl | hc
    · rfl
    · rw [List.eq_of_mem_replicate hc]
      rfl
  isSpace_gap c hc := by
    rw [List.mem_singleton.1 hc]
    rfl

variable (L : Layout)

mutual

/-- The text of a value in a layout. -/
def text (depth : Nat) : Json → List Char
  | .null => ['n', 'u', 'l', 'l']
  | .boolean b => if b then ['t', 'r', 'u', 'e'] else ['f', 'a', 'l', 's', 'e']
  | .integer n => integerText n
  | .double n => doubleText n
  | .string s => stringText s
  | .array [] => ['[', ']']
  | .array (v :: vs) =>
    '[' :: (L.line (depth + 1) ++ (text (depth + 1) v ++ (itemsText (depth + 1) vs ++
      (L.line depth ++ [']']))))
  | .object [] => ['\x7b', '\x7d']
  | .object ((k, v) :: ms) =>
    '\x7b' :: (L.line (depth + 1) ++ (stringText k ++ ':' :: (L.gap ++ (text (depth + 1) v ++
      (membersText (depth + 1) ms ++ (L.line depth ++ ['\x7d']))))))

/-- Further items of an array. -/
def itemsText (depth : Nat) : List Json → List Char
  | [] => []
  | v :: vs => ',' :: (L.line depth ++ (text depth v ++ itemsText depth vs))

/-- Further members of an object. -/
def membersText (depth : Nat) : List (String × Json) → List Char
  | [] => []
  | (k, v) :: ms =>
    ',' :: (L.line depth ++ (stringText k ++ ':' :: (L.gap ++ (text depth v ++ membersText depth ms))))

end

end Layout

mutual

theorem compactText_eq (depth : Nat) : ∀ v, compactText v = Layout.compact.text depth v
  | .null => rfl
  | .boolean _ => rfl
  | .integer _ => rfl
  | .double _ => rfl
  | .string _ => rfl
  | .array [] => rfl
  | .array (v :: vs) => by
    rw [compactText, compactText_eq (depth + 1) v, compactItems_eq (depth + 1) vs, Layout.text]
    simp [Layout.compact]
  | .object [] => rfl
  | .object ((k, v) :: ms) => by
    rw [compactText, compactText_eq (depth + 1) v, compactMembers_eq (depth + 1) ms, Layout.text]
    simp [Layout.compact]

theorem compactItems_eq (depth : Nat) : ∀ vs, compactItems vs = Layout.compact.itemsText depth vs
  | [] => rfl
  | v :: vs => by
    rw [compactItems, compactText_eq depth v, compactItems_eq depth vs, Layout.itemsText]
    rfl

theorem compactMembers_eq (depth : Nat) :
    ∀ ms, compactMembers ms = Layout.compact.membersText depth ms
  | [] => rfl
  | (k, v) :: ms => by
    rw [compactMembers, compactText_eq depth v, compactMembers_eq depth ms, Layout.membersText]
    simp [Layout.compact]

end

mutual

theorem prettyText_eq (depth : Nat) : ∀ v, prettyText depth v = Layout.pretty.text depth v
  | .null => rfl
  | .boolean _ => rfl
  | .integer _ => rfl
  | .double _ => rfl
  | .string _ => rfl
  | .array [] => rfl
  | .array (v :: vs) => by
    rw [prettyText, prettyText_eq (depth + 1) v, prettyItems_eq (depth + 1) vs, Layout.text]
    simp [Layout.pretty]
  | .object [] => rfl
  | .object ((k, v) :: ms) => by
    rw [prettyText, prettyText_eq (depth + 1) v, prettyMembers_eq (depth + 1) ms, Layout.text]
    simp [Layout.pretty]

theorem prettyItems_eq (depth : Nat) : ∀ vs, prettyItems depth vs = Layout.pretty.itemsText depth vs
  | [] => rfl
  | v :: vs => by
    rw [prettyItems, prettyText_eq depth v, prettyItems_eq depth vs, Layout.itemsText]
    simp [Layout.pretty]

theorem prettyMembers_eq (depth : Nat) :
    ∀ ms, prettyMembers depth ms = Layout.pretty.membersText depth ms
  | [] => rfl
  | (k, v) :: ms => by
    rw [prettyMembers, prettyText_eq depth v, prettyMembers_eq depth ms, Layout.membersText]
    simp [Layout.pretty]

end

end Restyle.Json
