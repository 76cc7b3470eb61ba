/-!
# Texts as bytes

A text is a row of characters, and each character is one byte or several.  A reader that works on the bytes
counts its places in them and cuts the text at a place.  The cut may miss: the place may lie behind the end,
or inside a character of several bytes.  Both are faults (`bytesFrom`, `upTo`).

In front of a place that has nothing but characters of one byte in front of it (`IsAsciiTo`), bytes and
characters are counted alike.  There the bytes are those of the characters, and the text can be cut.
-/

namespace Restyle.Text

/-- Why a text or its bytes cannot be cut at a place. -/
inductive CutFault where
  | outOfRange
  | insideCharacter
  deriving Repr, DecidableEq

/-- The bytes of a text. -/
def bytes (text : String) : List UInt8 :=
  text.toByteArray.data.toList

/-- The bytes from a place on. -/
def bytesFrom (bs : List UInt8) (place : Nat) : Except CutFault (List UInt8) :=
  if place ≤ bs.length then .ok (bs.drop place) else .error .outOfRange

/-- The text in front of a byte. -/
def upTo (text : String) (place : Nat) : Except CutFault String :=
  if h : (String.Pos.Raw.mk place).IsValid text then
    .ok (text.sliceTo (text.pos ⟨place⟩ h)).copy
  else if place ≤ text.utf8ByteSize then .error .insideCharacter
  else .error .outOfRange

/-! ## Bytes of characters -/

theorem bytes_ofList (cs : List Char) :
    bytes (String.ofList cs) = cs.flatMap String.utf8EncodeChar := by
  rw [bytes, String.toByteArray_ofList, List.utf8Encode, List.toList_data_toByteArray]

theorem bytes_cons (c : Char) (cs : List Char) :
    bytes (String.ofList (c :: cs)) = String.utf8EncodeChar c ++ bytes (String.ofList cs) := by
  rw [bytes_ofList, bytes_ofList, List.flatMap_cons]

theorem bytes_cons_of_utf8Size {c : Char} (h : c.utf8Size = 1) (cs : List Char) :
    bytes (String.ofList (c :: cs)) = c.toUInt8 :: bytes (String.ofList cs) := by
  rw [bytes_cons, String.utf8EncodeChar_eq_singleton h, Char.toUInt8_val, List.singleton_append]

theorem bytes_append (cs ds : List Char) :
    bytes (String.ofList (cs ++ ds)) = bytes (String.ofList cs) ++ bytes (String.ofList ds) := by
  rw [bytes_ofList, bytes_ofList, bytes_ofList, List.flatMap_append]

theorem bytes_take_append_drop (place : Nat) (cs : List Char) : bytes (String.ofList cs) =
    bytes (String.ofList (cs.take place)) ++ bytes (String.ofList (cs.drop place)) := by
  rw [← bytes_append, List.take_append_drop]

theorem toNat_lt_of_utf8Size {c : Char} (h : c.utf8Size = 1) : c.toNat < 0x80 :=
  Nat.lt_succ_of_le (UInt32.le_iff_toNat_le.1 (Char.utf8Size_eq_one_iff.1 h))

theorem utf8Size_of_toNat_lt {c : Char} (h : c.toNat < 0x80) : c.utf8Size = 1 :=
  Char.utf8Size_eq_one_iff.2 (UInt32.le_iff_toNat_le.2 (Nat.le_of_lt_succ h))

theorem toNat_toUInt8 {c : Char} (h : c.utf8Size = 1) : c.toUInt8.toNat = c.toNat := by
  have hlt := toNat_lt_of_utf8Size h
  change c.toNat % 256 = c.toNat
  omega

/-- A character of several bytes starts with none of those that stand for a character. -/
theorem exists_first_byte {c : Char} (h : c.utf8Size ≠ 1) :
    ∃ b bs, String.utf8EncodeChar c = b :: bs ∧ 0x80 ≤ b := by
  have hrange : ¬c.val.toNat ≤ 0x7F := fun hle => h (utf8Size_of_toNat_lt (Nat.lt_succ_of_le hle))
  have hfirst : ∀ n, 0x80 ≤ n → n < 0x100 → 0x80 ≤ UInt8.ofNat n := by
    intro n hle hlt
    rw [UInt8.le_iff_toNat_le, UInt8.toNat_ofNat', Nat.mod_eq_of_lt hlt]
    exact hle
  unfold String.utf8EncodeChar
  dsimp only
  rw [if_neg hrange]
  split
  · exact ⟨_, _, rfl, hfirst _ (by omega) (by omega)⟩
  · split
    · exact ⟨_, _, rfl, hfirst _ (by omega) (by omega)⟩
    · exact ⟨_, _, rfl, hfirst _ (by omega) (by omega)⟩

/-- The byte of a character stands first where the character does. -/
theorem head?_bytes_eq_some_iff {c : Char} (hc : c.utf8Size = 1) (cs : List Char) :
    (bytes (String.ofList cs)).head? = some c.toUInt8 ↔ cs.head? = some c := by
  cases cs with
  | nil =>
    rw [bytes_ofList]
    exact ⟨nofun, nofun⟩
  | cons d ds =>
    by_cases hd : d.utf8Size = 1
    · rw [bytes_cons_of_utf8Size hd, List.head?_cons, List.head?_cons, Option.some.injEq,
        Option.some.injEq]
      refine ⟨fun heq => ?_, fun heq => heq ▸ rfl⟩
      have hnat := congrArg UInt8.toNat heq
      rw [toNat_toUInt8 hd, toNat_toUInt8 hc] at hnat
      exact Char.toNat_inj.1 hnat
    · obtain ⟨b, bs, hbytes, hle⟩ := exists_first_byte hd
      rw [bytes_cons, hbytes, List.cons_append, List.head?_cons, List.head?_cons,
        Option.some.injEq, Option.some.injEq]
      constructor
      · rintro rfl
        have hlt := toNat_lt_of_utf8Size hc
        rw [UInt8.le_iff_toNat_le, toNat_toUInt8 hc] at hle
        exact absurd hle (Nat.not_le_of_lt hlt)
      · rintro rfl
        exact absurd hc hd

/-! ## Places behind characters of one byte -/

/-- Only characters of one byte stand in front of a place in a text. -/
structure IsAsciiTo (cs : List Char) (place : Nat) : Prop where
  le : place ≤ cs.length
  ascii : ∀ c ∈ cs.take place, c.utf8Size = 1

theorem length_bytes {cs : List Char} (h : ∀ c ∈ cs, c.utf8Size = 1) :
    (bytes (String.ofList cs)).length = cs.length := by
  induction cs with
  | nil => rw [bytes_ofList]; rfl
  | cons c cs ih =>
    rw [bytes_cons, List.length_append, String.length_utf8EncodeChar, h c List.mem_cons_self,
      ih fun d hd => h d (List.mem_cons_of_mem c hd), List.length_cons, Nat.add_comm]

namespace IsAsciiTo

variable {cs : List Char} {place : Nat}

theorem zero (cs : List Char) : IsAsciiTo cs 0 :=
  ⟨Nat.zero_le _, by simp⟩

/-- One part behind another. -/
theorem add (h : IsAsciiTo cs place) {n : Nat} (hn : IsAsciiTo (cs.drop place) n) :
    IsAsciiTo cs (place + n) := by
  refine ⟨?_, ?_⟩
  · have hle := hn.le
    rw [List.length_drop] at hle
    have := h.le
    omega
  · intro c hc
    rw [List.take_add, List.mem_append] at hc
    exact hc.elim (h.ascii c) (hn.ascii c)

theorem of_append {front : List Char} (h : ∀ c ∈ front, c.utf8Size = 1) (rest : List Char) :
    IsAsciiTo (front ++ rest) front.length :=
  ⟨by simp, by rwa [List.take_left]⟩

/-- A character of one byte is passed in one step. -/
theorem succ (h : IsAsciiTo cs place) {c : Char} (hc : c.utf8Size = 1)
    (hhead : (cs.drop place).head? = some c) : IsAsciiTo cs (place + 1) := by
  obtain ⟨rest, hrest⟩ := List.head?_eq_some_iff.1 hhead
  have hfront := of_append (List.forall_mem_singleton.2 hc) rest
  rw [List.singleton_append, ← hrest] at hfront
  exact h.add hfront

section

variable (h : IsAsciiTo cs place)

include h

theorem length_bytes_take : (bytes (String.ofList (cs.take place))).length = place := by
  rw [length_bytes h.ascii, List.length_take, Nat.min_eq_left h.le]

theorem le_length_bytes : place ≤ (bytes (String.ofList cs)).length := by
  rw [bytes_take_append_drop place, List.length_append, h.length_bytes_take]
  exact Nat.le_add_right _ _

theorem drop_bytes : (bytes (String.ofList cs)).drop place = bytes (String.ofList (cs.drop place)) := by
  rw [bytes_take_append_drop place, List.drop_left' h.length_bytes_take]

/-- A byte is found at the place where its character stands. -/
theorem getElem?_bytes_beq {c : Char} (hc : c.utf8Size = 1) :
    ((bytes (String.ofList cs))[place]? == some c.toUInt8) = ((cs.drop place).head? == some c) := by
  rw [Bool.eq_iff_iff, beq_iff_eq, beq_iff_eq, ← List.head?_drop, h.drop_bytes,
    head?_bytes_eq_some_iff hc]

/-- The text is cut where its characters are. -/
theorem upTo_eq : upTo (String.ofList cs) place = .ok (String.ofList (cs.take place)) := by
  have hsize : (String.ofList (cs.take place)).utf8ByteSize = place := h.length_bytes_take
  have hvalid : (String.Pos.Raw.mk place).IsValid (String.ofList cs) :=
    String.Pos.Raw.isValid_ofList.2 ⟨place, hsize.symm⟩
  have hsplits : ((String.ofList cs).pos ⟨place⟩ hvalid).Splits (String.ofList (cs.take place))
      (String.ofList (cs.drop place)) := by
    refine ⟨?_, ?_⟩
    · rw [← String.ofList_append, List.take_append_drop]
    · rw [String.offset_pos]
      exact congrArg String.Pos.Raw.mk hsize.symm
  rw [upTo, dif_pos hvalid, (String.Pos.splits _).eq_left hsplits]

end

end IsAsciiTo

-- The first of the three bytes of a character is no place to cut behind.
example : upTo "€" 1 = .error .insideCharacter := by cbv

end Restyle.Text
