import Restyle.Proofs.Places
import Restyle.Proofs.TokenEnds

/-!
# Texts that open and end nothing

A text is inert if there is no quotation mark, bracket, semicolon or backslash in it and no comment
starts in it.  Its tokens then neither open nor close anything, and wherever it stands in front of a
stop, they end with it (`row_append_of_inert`).  How such a text falls into tokens does not matter to
a reader, as long as it is one piece of a rule.

`Token.row` is the row of tokens of a text without their places.
-/

namespace Restyle.Css.Token

theorem stop_comma : Stop ',' := by
  constructor <;> decide

theorem stop_colon : Stop ':' := by
  constructor <;> decide

theorem stop_openingCurly : Stop '\x7b' := by
  constructor <;> decide

/-! ## Classes of characters -/

/-- A class of characters that has none of some characters in it. -/
theorem not_mem_of_class {p : Char → Bool} {ds : List Char} (hp : ds.any p = false) {c : Char}
    (h : p c = true) : c ∉ ds := fun hmem =>
  List.any_eq_false.1 hp c hmem h

theorem eq_false_of_mem {p : Char → Bool} {ds : List Char} (hp : ds.any p = false) {c : Char}
    (h : c ∈ ds) : p c = false :=
  Bool.eq_false_iff.2 (List.any_eq_false.1 hp c h)

/-- The white space of style sheets. -/
def spaces : List Char := [' ', '\t', '\n', '\r', '\x0c']

theorem isSpace_of_not_mem {c : Char} (h : c ∉ spaces) : isSpace c = false := by
  simp only [spaces, List.mem_cons, List.not_mem_nil, or_false, not_or] at h
  simp only [isSpace, isNewline, Bool.or_eq_false_iff, beq_eq_false_iff_ne]
  exact ⟨⟨h.1, h.2.1⟩, ⟨h.2.2.1, h.2.2.2.1⟩, h.2.2.2.2⟩

/-! ## Rows of tokens -/

/-- The tokens of a text, their places forgotten. -/
def row (cs : List Char) : List Token :=
  (lex .start cs).map unplaced

theorem row_nil : row [] = [] := by
  rw [row, lex]
  rfl

theorem row_cons (c : Char) (cs : List Char) : row (c :: cs) =
    ⟨(scan c cs).1, c :: cs.take (scan c cs).2, .start⟩ :: row (cs.drop (scan c cs).2) := by
  rw [row, lex]
  exact congrArg _ (unplaced_lex _ _ _)

theorem row_cons_of_scan {c : Char} {cs : List Char} {kind : Kind} {n : Nat}
    (h : scan c cs = (kind, n)) :
    row (c :: cs) = ⟨kind, c :: cs.take n, .start⟩ :: row (cs.drop n) := by
  rw [row_cons, h]

theorem row_of_stop {x : Char} (hx : Stop x) (s : List Char) :
    row (x :: s) = ⟨singleKind x, [x], .start⟩ :: row s :=
  row_cons_of_scan (scan_of_stop hx s)

theorem flatMap_text_row (cs : List Char) : (row cs).flatMap text = cs := by
  rw [row, List.flatMap_map]
  exact flatMap_text_lex .start cs

/-- What a token is written as is a part of the text. -/
theorem mem_of_mem_row {cs : List Char} {t : Token} (ht : t ∈ row cs) {c : Char}
    (hc : c ∈ t.text) : c ∈ cs := by
  rw [← flatMap_text_row cs]
  exact List.mem_flatMap.2 ⟨t, ht, hc⟩

theorem text_of_comma {cs : List Char} {t : Token} (h : t ∈ row cs) (hkind : t.kind = .comma) :
    t.text = [','] := by
  obtain ⟨t, ht, rfl⟩ := List.mem_map.1 h
  obtain ⟨c, htext, hsingle⟩ := exists_singleKind_of_isMark ht (by rw [show t.kind = _ from hkind]; rfl)
  rw [show t.kind = _ from hkind] at hsingle
  unfold singleKind at hsingle
  split at hsingle <;> first | exact htext | cases hsingle

/-! ## Inert texts -/

/-- Quotation marks, brackets, semicolons and backslashes. -/
def isActive (c : Char) : Bool :=
  isQuote c || ['\\', ';', '(', ')', '[', ']', '\x7b', '\x7d'].contains c

/-- A text in which nothing is opened, closed, quoted, escaped or ended. -/
structure Inert (cs : List Char) : Prop where
  passive : ∀ c ∈ cs, isActive c = false
  uncommented : ¬['/', '*'] <:+: cs

/-- The kinds of the tokens of inert texts. -/
def Kind.isInert : Kind → Bool
  | .whiteSpace | .ident | .atKeyword | .hash | .number | .percentage | .dimension | .comparison
  | .delimiter | .colon | .comma | .openMark | .closeMark => true
  | _ => false

theorem Inert.part {cs ds : List Char} (h : Inert ds) (hpart : cs <:+: ds) : Inert cs :=
  ⟨fun c hc => h.passive c (hpart.subset hc), fun hin => h.uncommented (hin.trans hpart)⟩

theorem Inert.of_cons {c : Char} {cs : List Char} (h : Inert (c :: cs)) : Inert cs :=
  h.part (List.suffix_cons c cs).isInfix

theorem inert_nil : Inert [] :=
  ⟨nofun, by decide⟩

theorem Inert.ne_backslash {cs : List Char} (h : Inert cs) : ∀ c ∈ cs, c ≠ '\\' := by
  rintro c hc rfl
  exact absurd (h.passive _ hc) (by decide)

/-- The characters that are active. -/
def actives : List Char :=
  ['"', Char.ofNat 0x27, '\\', ';', '(', ')', '[', ']', '\x7b', '\x7d']

theorem mem_actives {c : Char} (h : isActive c = true) : c ∈ actives := by
  rcases Bool.or_eq_true_iff.1 h with hquote | hother
  · rcases Bool.or_eq_true_iff.1 hquote with hc | hc
    · rw [beq_iff_eq.1 hc]
      decide
    · have heq : c = Char.ofNat 0x27 := Char.toNat_inj.1 (beq_iff_eq.1 hc)
      rw [heq]
      decide
  · exact List.mem_cons_of_mem _ (List.mem_cons_of_mem _ (List.contains_iff_mem.1 hother))

/-- A text of characters of some class is inert if the class has no slash and no active character. -/
theorem inert_of_forall {p : Char → Bool} (hp : ('/' :: actives).any p = false) {cs : List Char}
    (h : ∀ c ∈ cs, p c = true) : Inert cs := by
  have hout : ∀ c ∈ cs, c ∉ '/' :: actives := fun c hc => not_mem_of_class hp (h c hc)
  refine ⟨fun c hc => ?_, fun hpart => ?_⟩
  · rw [Bool.eq_false_iff]
    exact fun hactive => hout c hc (List.mem_cons_of_mem _ (mem_actives hactive))
  · exact hout '/' (hpart.subset List.mem_cons_self) List.mem_cons_self

theorem isInert_singleKind {c : Char} (h : isActive c = false) :
    (singleKind c).isInert = true := by
  unfold singleKind
  split <;> first | rfl | exact absurd h (by decide)

/-- A token of an inert kind that takes no more than a number of characters behind its first. -/
structure Within (n : Nat) (scanned : Kind × Nat) : Prop where
  length : scanned.2 ≤ n
  kind : scanned.1.isInert = true

section

variable {x : Char} (hx : Stop x)

include hx

theorem nameLength_le_of_ne_backslash {cs : List Char} (h : ∀ c ∈ cs, c ≠ '\\') (s : List Char) :
    nameLength (cs ++ x :: s) ≤ cs.length := by
  have hbackslash : x ≠ '\\' := hx.ne _ (by decide)
  induction cs with
  | nil => simp [nameLength, hbackslash, hx.nameChar]
  | cons c cs ih =>
    have hc : ¬(c == '\\') = true := by
      rw [beq_iff_eq]
      exact h c List.mem_cons_self
    have hcs := ih fun d hd => h d (List.mem_cons_of_mem _ hd)
    rw [List.cons_append, nameLength, if_neg hc, List.length_cons]
    split <;> omega

theorem within_scanUnit {n : Nat} {cs : List Char} (h : Inert cs) (hn : n ≤ cs.length)
    (s : List Char) : Within cs.length (scanUnit n (cs ++ x :: s)) := by
  have hplain : ∀ c ∈ cs.drop n, c ≠ '\\' := fun c hc =>
    h.ne_backslash c (List.mem_of_mem_drop hc)
  have hunit := nameLength_le_of_ne_backslash hx hplain s
  have hlength : (cs.drop n).length = cs.length - n := List.length_drop
  rw [scanUnit_eq, drop_stop hn]
  refine iteInduction (fun hpercent => ⟨?_, rfl⟩) fun _ =>
    iteInduction (fun _ => ⟨?_, rfl⟩) fun _ => ⟨hn, rfl⟩
  · obtain ⟨rest, hrest⟩ := List.head?_eq_some_iff.1
      ((head?_stop (hx.ne '%' (by decide)) (cs.drop n) s).1 hpercent)
    rw [hrest, List.length_cons] at hlength
    dsimp only
    omega
  · dsimp only
    omega

theorem within_scanIdent {cs : List Char} (h : Inert cs) (s : List Char) :
    Within cs.length (scanIdent (cs ++ x :: s)) := by
  have hname := nameLength_le_of_ne_backslash hx h.ne_backslash s
  have hround : ((cs ++ x :: s).drop (nameLength (cs ++ x :: s))).head? ≠ some '(' := by
    rw [drop_stop hname, ne_eq, head?_stop (hx.ne '(' (by decide))]
    intro hhead
    have hmem := List.mem_of_mem_drop (List.mem_of_head? hhead)
    exact absurd (h.passive '(' hmem) (by decide)
  rw [scanIdent_of_head?_ne hround]
  exact ⟨hname, rfl⟩

/-- A token of an inert text ends before the stop behind the text. -/
theorem within_scan {c : Char} {cs : List Char} (h : Inert (c :: cs)) (s : List Char) :
    Within cs.length (scan c (cs ++ x :: s)) := by
  have hpassive := h.passive c List.mem_cons_self
  have hname := nameLength_le_of_ne_backslash hx h.of_cons.ne_backslash s
  have hunit := within_scanUnit hx h (numberLength_le (c :: cs)) s
  have hident := within_scanIdent hx h s
  have behind : ∀ {scanned : Kind × Nat}, Within (c :: cs).length scanned →
      Within cs.length (scanned.1, scanned.2 - 1) := fun hw =>
    ⟨Nat.sub_le_of_le_add hw.length, hw.kind⟩
  have hmarks : ∀ {front : List Char}, front ⊆ sought →
      front.isPrefixOf (cs ++ x :: s) = true → front.length ≤ cs.length := fun hsought hin => by
    rw [isPrefixOf_stop fun hmem => hx.notMem (hsought hmem)] at hin
    have hfront := List.isPrefixOf_iff_prefix.1 hin
    exact hfront.length_le
  unfold scan
  dsimp only
  rw [← List.cons_append, numberLength_stop hx]
  refine iteInduction (fun _ => ⟨?_, rfl⟩) fun _ => ?_
  · rw [spaceLength_stop hx]
    exact length_takeWhile_le _ cs
  refine iteInduction (fun hquote => ?_) fun _ => ?_
  · rw [isActive, hquote] at hpassive
    cases hpassive
  refine iteInduction (fun _ => ?_) fun _ => ?_
  · exact iteInduction (fun _ => ⟨hname, rfl⟩) fun _ => ⟨Nat.zero_le _, rfl⟩
  refine iteInduction (fun _ => ?_) fun _ => ?_
  · exact iteInduction (fun _ => ⟨hname, rfl⟩) fun _ => ⟨Nat.zero_le _, rfl⟩
  refine iteInduction (fun hcomment => ?_) fun _ => ?_
  · obtain ⟨hslash, hstar⟩ := Bool.and_eq_true_iff.1 hcomment
    obtain rfl := beq_iff_eq.1 hslash
    obtain ⟨rest, rfl⟩ := List.head?_eq_some_iff.1
      ((head?_stop (hx.ne '*' (by decide)) cs s).1 (beq_iff_eq.1 hstar))
    exact absurd ⟨[], rest, rfl⟩ h.uncommented
  refine iteInduction (fun _ => behind hunit) fun _ => ?_
  refine iteInduction (fun hmark => ⟨?_, rfl⟩) fun _ => ?_
  · exact hmarks (by decide) (Bool.and_eq_true_iff.1 hmark).2
  refine iteInduction (fun hmark => ⟨?_, rfl⟩) fun _ => ?_
  · exact hmarks (by decide) (Bool.and_eq_true_iff.1 hmark).2
  refine iteInduction (fun _ => behind hident) fun _ => ?_
  refine iteInduction (fun hequals => ⟨?_, rfl⟩) fun _ => ⟨Nat.zero_le _, isInert_singleKind hpassive⟩
  obtain ⟨rest, rfl⟩ := List.head?_eq_some_iff.1 ((head?_stop (hx.ne '=' (by decide)) cs s).1
    (beq_iff_eq.1 (Bool.and_eq_true_iff.1 hequals).2))
  exact Nat.le_add_left 1 _

/-- What a text falls into does not change when a stop is put behind it, if it is inert. -/
theorem scan_append_of_inert {c : Char} {cs : List Char} (h : Inert (c :: cs)) (s : List Char) :
    scan c (cs ++ x :: s) = scan c cs :=
  scan_stop hx (within_scan hx h []).length s

theorem row_append_of_inert {cs : List Char} (h : Inert cs) (s : List Char) :
    row (cs ++ x :: s) = row cs ++ row (x :: s) := by
  induction hn : cs.length using Nat.strong_induction_on generalizing cs with
  | _ n ih =>
    subst hn
    cases cs with
    | nil => rw [row_nil]; rfl
    | cons c cs =>
      have hscan := scan_append_of_inert hx h
      have hlength := (within_scan hx h []).length
      rw [hscan] at hlength
      have hrest : Inert (cs.drop (scan c cs).2) :=
        h.of_cons.part (List.drop_suffix _ cs).isInfix
      rw [List.cons_append, row_cons, row_cons, hscan, drop_stop hlength,
        List.take_append_of_le_length hlength,
        ih _ (Nat.lt_succ_of_le (List.drop_suffix _ cs).length_le) hrest rfl]
      rfl

end

/-- The tokens of an inert text are of inert kinds. -/
theorem isInert_of_mem_row {cs : List Char} (h : Inert cs) {t : Token} (ht : t ∈ row cs) :
    t.kind.isInert = true := by
  induction hn : cs.length using Nat.strong_induction_on generalizing cs with
  | _ n ih =>
    subst hn
    cases cs with
    | nil => rw [row_nil] at ht; cases ht
    | cons c cs =>
      rw [row_cons] at ht
      rcases List.mem_cons.1 ht with rfl | ht
      · have hkind := (within_scan stop_semicolon h []).kind
        rwa [scan_append_of_inert stop_semicolon h] at hkind
      · have hrest : Inert (cs.drop (scan c cs).2) :=
          h.of_cons.part (List.drop_suffix _ cs).isInfix
        exact ih _ (Nat.lt_succ_of_le (List.drop_suffix _ cs).length_le) hrest ht rfl

/-! ## The first token of a rule -/

/-- The kinds of white space, marks and at-keywords, with which no selector starts. -/
def Kind.isLead : Kind → Bool
  | .whiteSpace | .atKeyword | .openMark | .closeMark => true
  | _ => false

/-- Characters other than white space that no at-keyword and no mark starts with. -/
def startsPiece (c : Char) : Bool :=
  !(isSpace c || ['@', '-', '<'].contains c)

theorem startsPiece_of_not_mem {c : Char} (h : c ∉ ['@', '-', '<'] ++ spaces) :
    startsPiece c = true := by
  rw [List.mem_append, not_or] at h
  have hcontains : ['@', '-', '<'].contains c = false := by
    rw [List.contains_eq_mem, decide_eq_false h.1]
  rw [startsPiece, isSpace_of_not_mem h.2, hcontains]
  rfl

theorem Kind.isLead_of_isWord {kind : Kind} (h : kind.isWord = true) : kind.isLead = false := by
  cases kind <;> first | rfl | cases h

theorem isLead_singleKind (c : Char) : (singleKind c).isLead = false := by
  unfold singleKind
  split <;> rfl

theorem isLead_scan {c : Char} (h : startsPiece c = true) (cs : List Char) :
    (scan c cs).1.isLead = false := by
  simp only [startsPiece, Bool.not_eq_true', Bool.or_eq_false_iff, List.contains_eq_mem,
    decide_eq_false_iff_not, List.mem_cons, List.not_mem_nil, or_false, not_or] at h
  obtain ⟨hspace, hat, hminus, hless⟩ := h
  let OffLead (scanned : Kind × Nat) : Prop := scanned.1.isLead = false
  have word : ∀ {scanned : Kind × Nat}, scanned.1.isWord = true → OffLead scanned :=
    Kind.isLead_of_isWord
  change OffLead (scan c cs)
  unfold scan
  dsimp only
  rw [if_neg (by simp [hspace])]
  refine iteInduction (fun _ => word (isWord_scanString _ _)) fun _ => ?_
  refine iteInduction (fun _ => iteInduction (fun _ => rfl) fun _ => rfl) fun _ => ?_
  rw [if_neg (by simp [hat])]
  refine iteInduction (fun _ => rfl) fun _ => ?_
  refine iteInduction (fun _ => word (isWord_scanUnit _ _)) fun _ => ?_
  rw [if_neg (by simp [hminus]), if_neg (by simp [hless])]
  refine iteInduction (fun _ => word (isWord_scanIdent _)) fun _ => ?_
  exact iteInduction (fun _ => rfl) fun _ => isLead_singleKind c

theorem exists_row_cons {c : Char} {cs : List Char} (h : Inert (c :: cs))
    (hc : startsPiece c = true) : ∃ t ts, row (c :: cs) = t :: ts ∧ t.kind.isInert = true ∧
      t.kind.isLead = false := by
  have hkinds := fun t ht => isInert_of_mem_row h (t := t) ht
  rw [row_cons] at hkinds
  exact ⟨_, _, row_cons c cs, hkinds _ List.mem_cons_self, isLead_scan hc cs⟩

end Restyle.Css.Token
