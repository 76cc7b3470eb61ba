import Restyle.Json.Reader
import Restyle.Proofs.JsonLayouts

/-!
# JSON texts are read back

In any layout the text of a value is read back as the value, inside whatever is open and in front of
whatever may stand behind it (`Within.isReadBack`).  `Within` says which values this holds of: not nested
too deep, integers of at most 64 bits, finite doubles.  Only such values are ever read
(`within_of_parse`).
-/

namespace Restyle.Json

/-! ## Values within the limits -/

/-- Values with at most `d` arrays and objects in one another, integers of at most 64 bits and finite
doubles. -/
inductive Within : Nat → Json → Prop
  | null {d : Nat} : Within d .null
  | boolean {d : Nat} (b : Bool) : Within d (.boolean b)
  | integer {d : Nat} {n : Int} (hleast : -(2 ^ 63) ≤ n) (hgreatest : n < 2 ^ 64) :
    Within d (.integer n)
  | double {d : Nat} {n : Double} (h : n.isFinite = true) : Within d (.double n)
  | string {d : Nat} (s : String) : Within d (.string s)
  | array {d : Nat} {items : List Json} (h : ∀ v ∈ items, Within d v) : Within (d + 1) (.array items)
  | object {d : Nat} {members : List (String × Json)} (h : ∀ m ∈ members, Within d m.2) :
    Within (d + 1) (.object members)

/-! ## Steps of the reader -/

section

variable {stack : List Frame} {cs rest behind left : List Char} {c d : Char} {key : String}

theorem readValue_scalar (hskip : skipSpace cs = c :: rest) (hitems : c ≠ '[') (hmembers : c ≠ '\x7b')
    {v : Json} {n : Nat} (h : readScalar c rest = .ok (v, n)) :
    readValue stack .value cs = readValue stack (.settle v) (rest.drop n) := by
  rw [readValue]
  split
  · next heq => cases hskip.symm.trans heq
  · next heq =>
    cases hskip.symm.trans heq
    rw [if_neg (by simpa using hitems), if_neg (by simpa using hmembers), h]

section

variable (hopen : stack.length < depthLimit)

include hopen

/-- An opening square bracket: what stands behind it decides whether there are items. -/
theorem readValue_openArray (hskip : skipSpace cs = '[' :: rest)
    (hinner : skipSpace rest = d :: behind) :
    readValue stack .value cs =
      if d == ']' then readValue stack (.settle (.array [])) behind
      else readValue (.items [] :: stack) .value (d :: behind) := by
  conv_lhs => rw [readValue]
  split
  · next heq => cases hskip.symm.trans heq
  · next heq =>
    cases hskip.symm.trans heq
    rw [if_pos (by decide), if_neg (Nat.not_le.2 hopen)]
    split
    · next heq => cases hinner.symm.trans heq
    · next heq => cases hinner.symm.trans heq; rfl

theorem readValue_emptyArray (hskip : skipSpace cs = '[' :: rest)
    (hinner : skipSpace rest = ']' :: behind) :
    readValue stack .value cs = readValue stack (.settle (.array [])) behind := by
  rw [readValue_openArray hopen hskip hinner, if_pos (by decide)]

theorem readValue_array (hskip : skipSpace cs = '[' :: rest) (hinner : skipSpace rest = left)
    (hleft : ∃ d behind, left = d :: behind ∧ d ≠ ']') :
    readValue stack .value cs = readValue (.items [] :: stack) .value left := by
  obtain ⟨d, behind, rfl, hd⟩ := hleft
  rw [readValue_openArray hopen hskip hinner, if_neg (by simpa using hd)]

/-- An opening curly bracket: what stands behind it decides whether there are members. -/
theorem readValue_openObject (hskip : skipSpace cs = '\x7b' :: rest)
    (hinner : skipSpace rest = d :: behind) :
    readValue stack .value cs =
      if d == '\x7d' then readValue stack (.settle (.object [])) behind
      else match readKey (d :: behind) with
        | .error f => .error f
        | .ok (key, left) => readValue (.members [] key :: stack) .value left := by
  conv_lhs => rw [readValue]
  split
  · next heq => cases hskip.symm.trans heq
  · next heq =>
    cases hskip.symm.trans heq
    rw [if_neg (by decide), if_pos (by decide), if_neg (Nat.not_le.2 hopen)]
    split
    · next heq => cases hinner.symm.trans heq
    · next heq =>
      cases hinner.symm.trans heq
      cases hkey : readKey (d :: behind) <;> rfl

theorem readValue_emptyObject (hskip : skipSpace cs = '\x7b' :: rest)
    (hinner : skipSpace rest = '\x7d' :: behind) :
    readValue stack .value cs = readValue stack (.settle (.object [])) behind := by
  rw [readValue_openObject hopen hskip hinner, if_pos (by decide)]

theorem readValue_object (hskip : skipSpace cs = '\x7b' :: rest)
    (hinner : skipSpace rest = d :: behind) (hd : d ≠ '\x7d')
    (hkey : readKey (d :: behind) = .ok (key, left)) :
    readValue stack .value cs = readValue (.members [] key :: stack) .value left := by
  rw [readValue_openObject hopen hskip hinner, if_neg (by simpa using hd), hkey]

end

variable {v : Json}

theorem readValue_itemsEnd {before : List Json} (hskip : skipSpace cs = ']' :: rest) :
    readValue (.items before :: stack) (.settle v) cs =
      readValue stack (.settle (.array (v :: before).reverse)) rest := by
  conv_lhs => rw [readValue]
  split
  · next heq => cases hskip.symm.trans heq
  · next heq =>
    cases hskip.symm.trans heq
    rw [if_pos (by decide)]

theorem readValue_itemsNext {before : List Json} (hskip : skipSpace cs = ',' :: rest)
    (hinner : skipSpace rest = left) (hleft : ∃ d behind, left = d :: behind ∧ d ≠ ']') :
    readValue (.items before :: stack) (.settle v) cs =
      readValue (.items (v :: before) :: stack) .value left := by
  obtain ⟨d, behind, rfl, hd⟩ := hleft
  conv_lhs => rw [readValue]
  split
  · next heq => cases hskip.symm.trans heq
  · next heq =>
    cases hskip.symm.trans heq
    rw [if_neg (by decide), if_pos (by decide)]
    split
    · next heq => cases hinner.symm.trans heq
    · next heq =>
      cases hinner.symm.trans heq
      rw [if_neg (by simpa using hd)]

theorem readValue_membersEnd {before : List (String × Json)} (hskip : skipSpace cs = '\x7d' :: rest) :
    readValue (.members before key :: stack) (.settle v) cs =
      readValue stack (.settle (.object ((key, v) :: before).reverse)) rest := by
  conv_lhs => rw [readValue]
  split
  · next heq => cases hskip.symm.trans heq
  · next heq =>
    cases hskip.symm.trans heq
    rw [if_pos (by decide)]

theorem readValue_membersNext {before : List (String × Json)} {next : String}
    (hskip : skipSpace cs = ',' :: rest) (hinner : skipSpace rest = d :: behind) (hd : d ≠ '\x7d')
    (hkey : readKey (d :: behind) = .ok (next, left)) :
    readValue (.members before key :: stack) (.settle v) cs =
      readValue (.members ((key, v) :: before) next :: stack) .value left := by
  conv_lhs => rw [readValue]
  split
  · next heq => cases hskip.symm.trans heq
  · next heq =>
    cases hskip.symm.trans heq
    rw [if_neg (by decide), if_pos (by decide)]
    split
    · next heq => cases hinner.symm.trans heq
    · next heq =>
      cases hinner.symm.trans heq
      rw [if_neg (by simpa using hd)]
      split
      · next heq => cases hkey.symm.trans heq
      · next heq => cases hkey.symm.trans heq; rfl

end

/-- A key is read back with the colon behind it. -/
theorem readKey_text (key : String) (rest : List Char) :
    readKey (stringText key ++ ':' :: rest) = .ok (key, rest) := by
  have hread := readString_text key.toList (':' :: rest)
  have hname : readName (stringText key ++ ':' :: rest) = .ok (key, ':' :: rest) := by
    rw [stringText, List.cons_append, List.cons_append, List.append_assoc, List.singleton_append,
      readName, if_pos (by decide), hread]
    have hdrop : (key.toList.flatMap escapeChar ++ '"' :: ':' :: rest).drop
        ((key.toList.flatMap escapeChar).length + 1) = ':' :: rest := by
      rw [← List.drop_drop, List.drop_left]
      rfl
    simp only [bind, Except.bind, hdrop, String.ofList_toList]
    rfl
  rw [readKey, hname]
  rfl

/-! ## Texts are read back -/

/-- The text of a value starts neither with white space nor with the end of an array. -/
theorem text_eq_cons (L : Layout) {d : Nat} {v : Json} (h : v.Within d) (depth : Nat) :
    ∃ c cs, L.text depth v = c :: cs ∧ isSpace c = false ∧ c ≠ ']' := by
  have hscalar : ∀ {text : List Char} {v : Json}, ReadsScalar text v →
      ∃ c cs, text = c :: cs ∧ isSpace c = false ∧ c ≠ ']' := by
    rintro text v ⟨c, cs, hcons, hc, -⟩
    simp only [List.mem_cons, List.not_mem_nil, or_false, not_or] at hc
    obtain ⟨h1, h2, h3, h4, -, hne, -, -⟩ := hc
    exact ⟨c, cs, hcons, by simp [isSpace, h1, h2, h3, h4], hne⟩
  cases h with
  | null => exact hscalar readsScalar_null
  | boolean b => exact hscalar (readsScalar_boolean b)
  | integer hleast hgreatest => exact hscalar (readsScalar_integer hleast hgreatest)
  | double hfinite => exact hscalar (readsScalar_double hfinite)
  | string s => exact hscalar (readsScalar_string s)
  | @array _ items _ => cases items <;> exact ⟨'[', _, rfl, by decide, by decide⟩
  | @object _ members _ => cases members <;> exact ⟨'\x7b', _, rfl, by decide, by decide⟩

/-- A value is read back from its text, wherever it stands. -/
def IsReadBack (L : Layout) (d : Nat) (v : Json) : Prop :=
  ∀ (depth : Nat) (stack : List Frame) (cs rest : List Char), stack.length + d ≤ depthLimit →
    IsValueEnd rest → skipSpace cs = L.text depth v ++ rest →
      readValue stack .value cs = readValue stack (.settle v) rest

theorem ReadsScalar.readValue {text : List Char} {v : Json} (h : ReadsScalar text v)
    {stack : List Frame} {cs rest : List Char} (hend : IsValueEnd rest)
    (hskip : skipSpace cs = text ++ rest) :
    readValue stack .value cs = readValue stack (.settle v) rest := by
  obtain ⟨c, ds, rfl, hc, hread⟩ := h
  simp only [List.mem_cons, List.not_mem_nil, or_false, not_or] at hc
  obtain ⟨-, -, -, -, hitems, -, hmembers, -⟩ := hc
  rw [List.cons_append] at hskip
  rw [readValue_scalar hskip hitems hmembers (hread rest hend), List.drop_left]

/-- White space, then a closing bracket or a comma, or nothing at all. -/
theorem isValueEnd_blanks {blanks : List Char} (h : ∀ c ∈ blanks, isSpace c = true) {cs : List Char}
    (hcs : IsValueEnd cs) : IsValueEnd (blanks ++ cs) := by
  cases blanks with
  | nil => exact hcs
  | cons c blanks =>
    refine isValueEnd_cons ?_ _
    have hc := h c List.mem_cons_self
    simp only [isSpace, Bool.or_eq_true, beq_iff_eq] at hc
    rcases hc with ((rfl | rfl) | rfl) | rfl <;> decide

namespace Layout

variable (L : Layout)

theorem skipSpace_text {d : Nat} {v : Json} (h : v.Within d) (depth : Nat) {blanks : List Char}
    (hblanks : ∀ c ∈ blanks, isSpace c = true) (rest : List Char) :
    skipSpace (blanks ++ (L.text depth v ++ rest)) = L.text depth v ++ rest := by
  obtain ⟨c, cs, hcons, hspace, -⟩ := text_eq_cons L h depth
  rw [hcons, List.cons_append, skipSpace_blanks_cons hblanks hspace]

theorem exists_cons {d : Nat} {v : Json} (h : v.Within d) (depth : Nat) (rest : List Char) :
    ∃ c cs, L.text depth v ++ rest = c :: cs ∧ c ≠ ']' := by
  obtain ⟨c, cs, hcons, -, hc⟩ := text_eq_cons L h depth
  exact ⟨c, cs ++ rest, by rw [hcons, List.cons_append], hc⟩

theorem skipSpace_key {blanks : List Char} (hblanks : ∀ c ∈ blanks, isSpace c = true) (key : String)
    (rest : List Char) : skipSpace (blanks ++ (stringText key ++ rest)) =
      '"' :: (key.toList.flatMap escapeChar ++ ['"'] ++ rest) := by
  rw [stringText, List.cons_append, List.cons_append, skipSpace_blanks_cons hblanks (by decide)]

end Layout

section

variable {L : Layout} {d depth : Nat} {stack : List Frame} {rest : List Char}
  (hopen : stack.length + (d + 1) ≤ depthLimit)

include hopen

/-- The items of an array are read back one by one, by induction on those behind the next one. -/
theorem readValue_items {v : Json} {vs : List Json}
    (h : ∀ w ∈ v :: vs, w.Within d ∧ IsReadBack L d w) (before : List Json) {cs : List Char}
    (hskip : skipSpace cs = L.text (depth + 1) v ++ (L.itemsText (depth + 1) vs ++
      (L.line depth ++ ']' :: rest))) :
    readValue (.items before :: stack) .value cs =
      readValue stack (.settle (.array (before.reverse ++ v :: vs))) rest := by
  have hframe : (Frame.items before :: stack).length + d ≤ depthLimit := by
    rw [List.length_cons]
    omega
  induction vs generalizing v before cs with
  | nil =>
    have hend : IsValueEnd (L.line depth ++ ']' :: rest) :=
      isValueEnd_blanks (L.isSpace_line depth) (isValueEnd_cons (by decide) rest)
    have hread := (h v List.mem_cons_self).2 (depth + 1) _ cs _ hframe hend hskip
    have hclose := skipSpace_blanks_cons (L.isSpace_line depth) (c := ']') (by decide) rest
    rw [hread, readValue_itemsEnd hclose, List.reverse_cons]
  | cons w ws ih =>
    obtain ⟨hv, hrest⟩ := List.forall_mem_cons.1 h
    have hw := (hrest w List.mem_cons_self).1
    have hcomma : L.itemsText (depth + 1) (w :: ws) ++ (L.line depth ++ ']' :: rest) =
        ',' :: (L.line (depth + 1) ++ (L.text (depth + 1) w ++ (L.itemsText (depth + 1) ws ++
          (L.line depth ++ ']' :: rest)))) := by
      rw [Layout.itemsText]
      simp only [List.append_assoc, List.cons_append]
    have hnext := L.skipSpace_text hw (depth + 1) (L.isSpace_line (depth + 1))
      (L.itemsText (depth + 1) ws ++ (L.line depth ++ ']' :: rest))
    rw [hcomma] at hskip
    have hread := hv.2 (depth + 1) _ cs _ hframe (isValueEnd_cons (by decide) _) hskip
    rw [hread, readValue_itemsNext (skipSpace_cons (by decide) _) hnext (L.exists_cons hw (depth + 1) _),
      ih hrest (v :: before) (by rw [← hnext, skipSpace_skipSpace]) hframe, List.reverse_cons,
      List.append_assoc, List.singleton_append]

/-- So are the members of an object, behind the first key and its colon. -/
theorem readValue_members {key : String} {v : Json} {ms : List (String × Json)}
    (h : ∀ m ∈ (key, v) :: ms, m.2.Within d ∧ IsReadBack L d m.2)
    (before : List (String × Json)) {cs : List Char}
    (hskip : skipSpace cs = L.text (depth + 1) v ++ (L.membersText (depth + 1) ms ++
      (L.line depth ++ '\x7d' :: rest))) :
    readValue (.members before key :: stack) .value cs =
      readValue stack (.settle (.object (before.reverse ++ (key, v) :: ms))) rest := by
  have hframe : ∀ key, (Frame.members before key :: stack).length + d ≤ depthLimit := fun _ => by
    rw [List.length_cons]
    omega
  induction ms generalizing key v before cs with
  | nil =>
    have hend : IsValueEnd (L.line depth ++ '\x7d' :: rest) :=
      isValueEnd_blanks (L.isSpace_line depth) (isValueEnd_cons (by decide) rest)
    have hread := (h (key, v) List.mem_cons_self).2 (depth + 1) _ cs _ (hframe key) hend hskip
    have hclose := skipSpace_blanks_cons (L.isSpace_line depth) (c := '\x7d') (by decide) rest
    rw [hread, readValue_membersEnd hclose, List.reverse_cons]
  | cons m ms ih =>
    obtain ⟨next, w⟩ := m
    obtain ⟨hv, hrest⟩ := List.forall_mem_cons.1 h
    obtain ⟨behind, hbehind⟩ : ∃ behind, behind = L.text (depth + 1) w ++
      (L.membersText (depth + 1) ms ++ (L.line depth ++ '\x7d' :: rest)) := ⟨_, rfl⟩
    have hcomma : L.membersText (depth + 1) ((next, w) :: ms) ++ (L.line depth ++ '\x7d' :: rest) =
        ',' :: (L.line (depth + 1) ++ (stringText next ++ ':' :: (L.gap ++ behind))) := by
      rw [Layout.membersText, hbehind]
      simp only [List.append_assoc, List.cons_append]
    rw [hcomma] at hskip
    have hread := hv.2 (depth + 1) _ cs _ (hframe key) (isValueEnd_cons (by decide) _) hskip
    have hnext := Layout.skipSpace_key (L.isSpace_line (depth + 1)) next (':' :: (L.gap ++ behind))
    have hvalue := L.skipSpace_text (hrest (next, w) List.mem_cons_self).1 (depth + 1) L.isSpace_gap
      (L.membersText (depth + 1) ms ++ (L.line depth ++ '\x7d' :: rest))
    rw [hread, readValue_membersNext (skipSpace_cons (by decide) _) hnext (by decide)
      (readKey_text next _), ih hrest ((key, v) :: before) (by rw [hbehind]; exact hvalue)
        fun key => hframe key, List.reverse_cons, List.append_assoc, List.singleton_append]

end

/-- Values within the limits are read back. -/
theorem Within.isReadBack (L : Layout) {d : Nat} {v : Json} (h : v.Within d) : IsReadBack L d v := by
  induction h with
  | null => exact fun _ _ _ _ _ hend hskip => readsScalar_null.readValue hend hskip
  | boolean b => exact fun _ _ _ _ _ hend hskip => (readsScalar_boolean b).readValue hend hskip
  | integer hleast hgreatest =>
    exact fun _ _ _ _ _ hend hskip => (readsScalar_integer hleast hgreatest).readValue hend hskip
  | double hfinite =>
    exact fun _ _ _ _ _ hend hskip => (readsScalar_double hfinite).readValue hend hskip
  | string s => exact fun _ _ _ _ _ hend hskip => (readsScalar_string s).readValue hend hskip
  | @array d items h ih =>
    intro depth stack cs rest hopen _ hskip
    have hroom : stack.length < depthLimit := by omega
    cases items with
    | nil => exact readValue_emptyArray hroom hskip (skipSpace_cons (by decide) rest)
    | cons v vs =>
      have htext : L.text depth (.array (v :: vs)) ++ rest = '[' :: (L.line (depth + 1) ++
          (L.text (depth + 1) v ++ (L.itemsText (depth + 1) vs ++ (L.line depth ++ ']' :: rest)))) := by
        rw [Layout.text]
        simp only [List.append_assoc, List.cons_append, List.nil_append]
      have hnext := L.skipSpace_text (h v List.mem_cons_self) (depth + 1)
        (L.isSpace_line (depth + 1)) (L.itemsText (depth + 1) vs ++ (L.line depth ++ ']' :: rest))
      rw [htext] at hskip
      rw [readValue_array hroom hskip hnext (L.exists_cons (h v List.mem_cons_self) (depth + 1) _),
        readValue_items hopen (fun w hw => ⟨h w hw, ih w hw⟩) [] (by rw [← hnext, skipSpace_skipSpace])]
      rfl
  | @object d members h ih =>
    intro depth stack cs rest hopen _ hskip
    have hroom : stack.length < depthLimit := by omega
    cases members with
    | nil => exact readValue_emptyObject hroom hskip (skipSpace_cons (by decide) rest)
    | cons m ms =>
      obtain ⟨key, v⟩ := m
      obtain ⟨behind, hbehind⟩ : ∃ behind, behind = L.text (depth + 1) v ++
        (L.membersText (depth + 1) ms ++ (L.line depth ++ '\x7d' :: rest)) := ⟨_, rfl⟩
      have htext : L.text depth (.object ((key, v) :: ms)) ++ rest = '\x7b' ::
          (L.line (depth + 1) ++ (stringText key ++ ':' :: (L.gap ++ behind))) := by
        rw [Layout.text, hbehind]
        simp only [List.append_assoc, List.cons_append, List.nil_append]
      have hnext := Layout.skipSpace_key (L.isSpace_line (depth + 1)) key (':' :: (L.gap ++ behind))
      have hvalue := L.skipSpace_text (h (key, v) List.mem_cons_self) (depth + 1) L.isSpace_gap
        (L.membersText (depth + 1) ms ++ (L.line depth ++ '\x7d' :: rest))
      rw [htext] at hskip
      rw [readValue_object hroom hskip hnext (by decide) (readKey_text key _),
        readValue_members hopen (fun w hw => ⟨h w hw, ih w hw⟩) [] (by rw [hbehind]; exact hvalue)]
      rfl

section

variable {v : Json} (h : v.Within depthLimit)

include h

theorem readText_layout (L : Layout) : readText (L.text 0 v) = .ok v := by
  obtain ⟨c, cs, hcons, hspace, -⟩ := text_eq_cons L h 0
  have hskip : skipSpace (L.text 0 v) = L.text 0 v ++ [] := by
    rw [List.append_nil, hcons, skipSpace_cons hspace]
  have hread := h.isReadBack L 0 [] _ [] (by simp) isValueEnd_nil hskip
  rw [readText, hread, readValue]
  rfl

/-- A value is read back from its compact text. -/
theorem parse_compact : parse v.compact = .ok v := by
  rw [parse, compact, String.toList_ofList, compactText_eq 0, readText_layout h]
  rfl

/-- A value is read back from its pretty text. -/
theorem parse_pretty : parse v.pretty = .ok v := by
  rw [parse, pretty, String.toList_ofList, prettyText_eq 0, readText_layout h]
  rfl

end

/-! ## What is read is within the limits -/

theorem within_of_readNumber {cs : List Char} {v : Json} {n : Nat} (h : readNumber cs = .ok (v, n))
    (d : Nat) : v.Within d := by
  unfold readNumber at h
  dsimp only at h
  generalize (if cs.head? == some '-' then 1 else 0 : Nat) = sign at h
  obtain ⟨whole, -, h⟩ := exists_of_bind_eq_ok h
  obtain ⟨fraction, -, h⟩ := exists_of_bind_eq_ok h
  obtain ⟨exponent, -, h⟩ := exists_of_bind_eq_ok h
  generalize Number.readNumeral (cs.take (sign + whole + fraction + exponent)) = decimal at h
  split at h
  · split at h
    · cases h
    · cases h
      exact .double (by rw [Double.ofCode_of_lt _ (by decide)]; rfl)
  by_cases hsign : sign = 0
  · simp only [if_pos hsign, Nat.pow_eq, Bool.and_eq_true, decide_eq_true_eq] at h
    split at h
    · next hwhole => cases h; exact .integer (by omega) (by omega)
    split at h
    · next hfinite => cases h; exact .double hfinite
    · cases h
  · simp only [if_neg hsign, Nat.pow_eq, Bool.and_eq_true, decide_eq_true_eq] at h
    split at h
    · next hwhole => cases h; exact .integer (by omega) (by omega)
    split at h
    · next hfinite => cases h; exact .double hfinite
    · cases h

theorem within_of_readScalar {c : Char} {cs : List Char} {v : Json} {n : Nat}
    (h : readScalar c cs = .ok (v, n)) (d : Nat) : v.Within d := by
  unfold readScalar at h
  split at h
  · obtain ⟨-, -, h⟩ := exists_of_bind_eq_ok h
    cases h
    exact .null
  split at h
  · obtain ⟨-, -, h⟩ := exists_of_bind_eq_ok h
    cases h
    exact .boolean true
  split at h
  · obtain ⟨-, -, h⟩ := exists_of_bind_eq_ok h
    cases h
    exact .boolean false
  split at h
  · obtain ⟨⟨s, m⟩, -, h⟩ := exists_of_bind_eq_ok h
    cases h
    exact .string _
  split at h
  · obtain ⟨⟨w, m⟩, hread, h⟩ := exists_of_bind_eq_ok h
    cases h
    exact within_of_readNumber hread d
  · cases h

/-- What an open array or object has so far is within the limits. -/
def Frame.Within (d : Nat) : Frame → Prop
  | .items before => ∀ v ∈ before, v.Within d
  | .members before _ => ∀ m ∈ before, m.2.Within d

/-- All that is open: the frame at the bottom may hold the deepest values. -/
def StackWithin : List Frame → Prop
  | [] => True
  | frame :: stack =>
    stack.length < depthLimit ∧ frame.Within (depthLimit - (stack.length + 1)) ∧ StackWithin stack

def Task.Within (d : Nat) : Task → Prop
  | .value => True
  | .settle v => v.Within d

theorem StackWithin.array {stack : List Frame} {before : List Json} {v : Json}
    (hstack : StackWithin (.items before :: stack))
    (hv : v.Within (depthLimit - (stack.length + 1))) :
    (Json.array (v :: before).reverse).Within (depthLimit - stack.length) := by
  obtain ⟨hopen, hbefore, -⟩ := hstack
  have hdepth : depthLimit - stack.length = depthLimit - (stack.length + 1) + 1 := by omega
  rw [hdepth]
  refine .array fun w hw => ?_
  rcases List.mem_cons.1 (List.mem_reverse.1 hw) with rfl | hw
  · exact hv
  · exact hbefore w hw

theorem StackWithin.object {stack : List Frame} {before : List (String × Json)} {key : String}
    {v : Json} (hstack : StackWithin (.members before key :: stack))
    (hv : v.Within (depthLimit - (stack.length + 1))) :
    (Json.object ((key, v) :: before).reverse).Within (depthLimit - stack.length) := by
  obtain ⟨hopen, hbefore, -⟩ := hstack
  have hdepth : depthLimit - stack.length = depthLimit - (stack.length + 1) + 1 := by omega
  rw [hdepth]
  refine .object fun m hm => ?_
  rcases List.mem_cons.1 (List.mem_reverse.1 hm) with rfl | hm
  · exact hv
  · exact hbefore m hm

theorem within_empty {stack : List Frame} (hopen : ¬depthLimit ≤ stack.length) :
    (Json.array []).Within (depthLimit - stack.length) ∧
      (Json.object []).Within (depthLimit - stack.length) := by
  have hdepth : depthLimit - stack.length = depthLimit - (stack.length + 1) + 1 := by omega
  rw [hdepth]
  exact ⟨.array nofun, .object nofun⟩

/-- A reader that has only values within the limits in hand ends with such a value. -/
theorem within_of_readValue {stack : List Frame} {task : Task} {cs rest : List Char} {v : Json}
    (hstack : StackWithin stack) (htask : task.Within (depthLimit - stack.length))
    (h : readValue stack task cs = .ok (v, rest)) : v.Within depthLimit := by
  fun_induction readValue stack task cs with
  | case4 _ _ _ _ _ _ hopen _ _ _ _ ih => exact ih hstack (within_empty hopen).1 h
  | case5 _ _ _ _ _ _ hopen _ _ _ _ ih => exact ih ⟨Nat.not_le.1 hopen, nofun, hstack⟩ trivial h
  | case8 _ _ _ _ _ _ _ hopen _ _ _ _ ih => exact ih hstack (within_empty hopen).2 h
  | case10 _ _ _ _ _ _ _ hopen _ _ _ _ _ _ _ ih =>
    exact ih ⟨Nat.not_le.1 hopen, nofun, hstack⟩ trivial h
  | case12 _ _ _ _ _ _ _ _ _ hscalar ih => exact ih hstack (within_of_readScalar hscalar _) h
  | case13 => cases h; exact htask
  | case15 _ _ _ _ _ _ _ _ ih => exact ih hstack.2.2 (hstack.array htask) h
  | case18 _ _ _ _ _ _ _ _ _ _ _ _ _ ih =>
    exact ih ⟨hstack.1, List.forall_mem_cons.2 ⟨htask, hstack.2.1⟩, hstack.2.2⟩ trivial h
  | case21 _ _ _ _ _ _ _ _ _ ih => exact ih hstack.2.2 (hstack.object htask) h
  | case25 _ _ _ _ _ _ _ _ _ _ _ _ _ _ _ _ _ ih =>
    exact ih ⟨hstack.1, List.forall_mem_cons.2 ⟨htask, hstack.2.1⟩, hstack.2.2⟩ trivial h
  | _ => cases h

/-- Only values within the limits are read. -/
theorem within_of_parse {text : String} {v : Json} (h : parse text = .ok v) : v.Within depthLimit := by
  unfold parse at h
  cases hread : readText text.toList with
  | error f => rw [hread] at h; cases h
  | ok w =>
    rw [hread] at h
    obtain rfl := Except.ok.inj h
    obtain ⟨⟨u, rest⟩, hvalue, hend⟩ := exists_of_bind_eq_ok hread
    have hempty : StackWithin [] := trivial
    have htask : Task.value.Within (depthLimit - ([] : List Frame).length) := trivial
    have hwithin := within_of_readValue hempty htask hvalue
    dsimp only at hend
    unfold readEnd at hend
    split at hend
    · obtain rfl := Except.ok.inj hend
      exact hwithin
    · cases hend

end Restyle.Json
