import Restyle.Css.AtRule
import Restyle.Proofs.Passages

/-!
# Passages that are divided

A custom media rule takes its text apart, into a name and a query with white space between them.  The text
is cut as a text, at the first white space of Unicode, which may stand within a token.

A passage can be divided wherever white space stands in it (`Passage.exists_divides`), which gives two
passages.  Each of them keeps its tokens exactly if it survives, with one more condition on the first: it
may not end in the name of an address that is none because the second starts with a quotation mark.  The
name and the query keep the tokens of the two only if they are their texts, that is, if the text is cut
where the passage is divided (`Passage.StandsAt.takenApart`).
-/

namespace Restyle.Css

namespace Token

/-! ## Pieces that are cut in two -/

/-- Pieces are cut in two, within one of them. -/
inductive Halved : List (List Token) → List (List Token) → List (List Token) → Prop
  | here (front back : List Token) (pieces : List (List Token)) :
    Halved ((front ++ back) :: pieces) [front] (back :: pieces)
  | there (piece : List Token) {pieces fronts backs : List (List Token)}
    (h : Halved pieces fronts backs) : Halved (piece :: pieces) (piece :: fronts) backs

section

variable {behind ts : List Token} {pieces fronts backs : List (List Token)}

theorem Halved.flatten_eq (h : Halved pieces fronts backs) :
    pieces.flatten = fronts.flatten ++ backs.flatten := by
  induction h with
  | here front back pieces => simp
  | there piece _ ih => rw [List.flatten_cons, ih, List.flatten_cons, List.append_assoc]

/-- Pieces can be cut anywhere. -/
theorem exists_halved {us vs : List Token} (hne : pieces ≠ []) (h : pieces.flatten = us ++ vs) :
    ∃ fronts backs, Halved pieces fronts backs ∧ fronts.flatten = us ∧ backs.flatten = vs := by
  induction pieces generalizing us with
  | nil => exact absurd rfl hne
  | cons piece pieces ih =>
    have here : ∀ back, piece = us ++ back → vs = back ++ pieces.flatten →
        ∃ fronts backs, Halved (piece :: pieces) fronts backs ∧ fronts.flatten = us ∧
          backs.flatten = vs := by
      rintro back rfl rfl
      exact ⟨_, _, .here us back pieces, List.flatten_singleton, List.flatten_cons⟩
    rw [List.flatten_cons, List.append_eq_append_iff] at h
    obtain ⟨front, rfl, hfront⟩ | ⟨back, hpiece, hback⟩ := h
    · by_cases hpieces : pieces = []
      · obtain ⟨rfl, rfl⟩ := List.append_eq_nil_iff.1
          (hfront.symm.trans (by rw [hpieces, List.flatten_nil]))
        exact here [] (by simp) (by simp [hpieces])
      · obtain ⟨fronts, backs, hhalved, rfl, rfl⟩ := ih hpieces hfront
        exact ⟨_, _, .there piece hhalved, List.flatten_cons, rfl⟩
    · exact here back hpiece hback

/-- Either half of some pieces is pieces in its place. -/
theorem Pieces.halved (h : Pieces behind ts pieces) (hhalved : Halved pieces fronts backs) :
    ∃ mid, Pieces mid ts fronts ∧ Pieces behind mid backs := by
  induction hhalved generalizing ts with
  | here front back pieces =>
    generalize hpiece : front ++ back = piece at h
    cases h with
    | one =>
      subst hpiece
      rw [List.append_assoc]
      exact ⟨_, .one front, .one back⟩
    | cons _ hcomment rest =>
      subst hpiece
      rw [List.append_assoc]
      exact ⟨_, .one front, .cons back hcomment rest⟩
  | there piece hhalved ih =>
    cases h with
    | one => cases hhalved
    | cons _ hcomment rest =>
      obtain ⟨mid, hfronts, hbacks⟩ := ih rest
      exact ⟨mid, .cons piece hcomment hfronts, hbacks⟩

/-- Some white space, and nothing else. -/
structure IsGap (ts : List Token) : Prop where
  ne_nil : ts ≠ []
  whiteSpace : ∀ t ∈ ts, t.kind = .whiteSpace

theorem IsGap.append_right {ts us : List Token} (h : IsGap ts) (hus : ∀ t ∈ us, t.kind = .whiteSpace) :
    IsGap (ts ++ us) where
  ne_nil := List.append_ne_nil_of_left_ne_nil h.ne_nil us
  whiteSpace := List.forall_mem_append.2 ⟨h.whiteSpace, hus⟩

theorem IsGap.append_left {ts us : List Token} (h : IsGap ts) (hus : ∀ t ∈ us, t.kind = .whiteSpace) :
    IsGap (us ++ ts) where
  ne_nil := List.append_ne_nil_of_right_ne_nil us h.ne_nil
  whiteSpace := List.forall_mem_append.2 ⟨hus, h.whiteSpace⟩

/-- Where there is white space in front, there is that or a comment. -/
theorem Pieces.exists_margin (h : Pieces behind ts pieces) (hgap : IsGap pieces.flatten) :
    ∃ t us, ts = t :: us ∧ t.isMargin = true := by
  obtain ⟨hne, hspaces⟩ := hgap
  cases h with
  | one piece =>
    rw [List.flatten_singleton] at hne hspaces
    obtain ⟨t, piece, rfl⟩ := List.exists_cons_of_ne_nil hne
    exact ⟨t, piece ++ behind, rfl, isMargin_of_whiteSpace (hspaces t List.mem_cons_self)⟩
  | @cons piece comment ts pieces hcomment rest =>
    cases piece with
    | nil => exact ⟨comment, ts, rfl, isMargin_of_comment hcomment⟩
    | cons t piece =>
      refine ⟨t, piece ++ comment :: ts, rfl, isMargin_of_whiteSpace (hspaces t ?_)⟩
      exact List.mem_append_left _ List.mem_cons_self

end

/-- A text is what the tokens it is read as are written as. -/
theorem flatMap_text_of_row {ts : List Token} {cs : List Char} (h : row cs = ts.map unplaced) :
    ts.flatMap text = cs := by
  rw [← flatMap_text_map_unplaced, ← h, flatMap_text_row]

/-- White space starts with a character that is white space of Unicode too. -/
theorem exists_blank {ts : List Token} {cs : List Char} (h : row cs = ts.map unplaced)
    {t : Token} (ht : t ∈ ts) (hkind : t.kind = .whiteSpace) :
    ∃ c, t.text.head? = some c ∧ Text.isBlank c = true := by
  have hmem : t.unplaced ∈ row cs := h ▸ List.mem_map_of_mem ht
  have hscanned := isScanned_of_mem_row hmem
  obtain ⟨c, ds, htext⟩ := List.exists_cons_of_ne_nil hscanned.text_ne_nil
  refine ⟨c, congrArg List.head? htext, Passage.isBlank_of_isSpace ?_⟩
  exact hscanned.isSpace_of_whiteSpace hkind c (htext ▸ List.mem_cons_self)

end Token

namespace Passage

/-! ## Passages that are cut in two -/

/-- A passage is divided at some white space into what stands in front of that and what stands behind
it.  There may be comments among the white space. -/
def Divides (p front behind : Passage) : Prop :=
  ∃ gap rest, Token.Halved p.pieces front.pieces rest ∧ Token.Halved rest gap behind.pieces ∧
    Token.IsGap gap.flatten

theorem Divides.exists_gap {p front behind : Passage} (h : p.Divides front behind) :
    ∃ gap, Token.IsGap gap ∧ p.kept = front.kept ++ (gap ++ behind.kept) := by
  obtain ⟨gap, rest, hfront, hbehind, hgap⟩ := h
  refine ⟨gap.flatten, hgap, ?_⟩
  rw [kept, hfront.flatten_eq, hbehind.flatten_eq, kept, kept]

/-- A passage can be divided wherever there is white space in it. -/
theorem exists_divides {p : Passage} {us gap vs : List Token} (h : p.kept = us ++ (gap ++ vs))
    (hgap : Token.IsGap gap) (hus : ∀ t ∈ us.getLast?, t.kind ≠ .whiteSpace)
    (hvs : ∀ t ∈ vs.head?, t.kind ≠ .whiteSpace) :
    ∃ front behind, p.Divides front behind ∧ front.kept = us ∧ behind.kept = vs := by
  have hpieces : p.pieces ≠ [] := by
    intro hnil
    rw [kept, hnil, List.flatten_nil] at h
    exact hgap.ne_nil (List.append_eq_nil_iff.1 (List.append_eq_nil_iff.1 h.symm).2).1
  obtain ⟨fronts, rest, hfronts, rfl, hrest⟩ := Token.exists_halved hpieces h
  have hrests : rest ≠ [] := by
    rintro rfl
    exact hgap.ne_nil (List.append_eq_nil_iff.1 hrest.symm).1
  obtain ⟨gaps, backs, hbacks, rfl, rfl⟩ := Token.exists_halved hrests hrest
  have hhead : ∀ t ∈ fronts.flatten.head?, t.kind ≠ .whiteSpace := by
    intro t ht
    refine p.head t ?_
    rw [show p.pieces.flatten = _ from h, List.head?_append, Option.mem_def.1 ht]
    rfl
  have hlast : ∀ t ∈ backs.flatten.getLast?, t.kind ≠ .whiteSpace := by
    intro t ht
    refine p.last t ?_
    rw [show p.pieces.flatten = _ from h, List.getLast?_append, List.getLast?_append,
      Option.mem_def.1 ht]
    rfl
  exact ⟨⟨fronts, hhead, hus⟩, ⟨backs, hvs, hlast⟩, ⟨gaps, rest, hfronts, hbacks, hgap⟩, rfl, rfl⟩

/-- The last token of a passage is no white space, so it alone may hang on a quotation mark behind. -/
theorem awaitQuote_kept_iff {p : Passage} :
    Token.AwaitQuote p.kept ↔ ∃ t ∈ p.kept.getLast?, t.HangsOnQuote := by
  constructor
  · rintro ⟨front, t, spaces, hkept, hspaces, ht⟩
    refine ⟨t, ?_, ht⟩
    rcases List.eq_nil_or_concat spaces with rfl | ⟨init, u, hinit⟩
    · rw [hkept, List.getLast?_concat]
      rfl
    · rw [hinit, List.concat_eq_append] at hkept hspaces
      refine absurd (hspaces u (by simp)) (p.last u ?_)
      rw [show p.pieces.flatten = _ from hkept, ← List.cons_append, ← List.append_assoc,
        List.getLast?_concat]
      rfl
  · rintro ⟨t, ht, hhangs⟩
    obtain ⟨init, hinit⟩ := List.getLast?_eq_some_iff.1 (Option.mem_def.1 ht)
    exact ⟨init, t, [], hinit, List.forall_mem_nil _, hhangs⟩

section

variable {css : List Char} {ts rest : List Token} {p front behind : Passage}
  (h : p.StandsAt (Token.lex .start css) ts rest) (hdivides : p.Divides front behind)

include h hdivides

/-- What stands in front of white space keeps its tokens exactly if it survives and is not the beginning
of an address without the quotation mark behind it. -/
theorem StandsAt.row_front_iff :
    Token.row front.text.toList = front.kept.map Token.unplaced ↔
      front.Survives ∧ ∀ t ∈ front.kept.getLast?, ¬t.HangsOnQuote := by
  obtain ⟨lead, behind, hsource, hpieces, -⟩ := h.exists_pieces
  obtain ⟨gap, rest, hfront, hbehind, hgap⟩ := hdivides
  obtain ⟨mid, hmid, hrest⟩ := hpieces.halved hfront
  obtain ⟨last, hlast, -⟩ := hrest.halved hbehind
  obtain ⟨t, us, rfl, ht⟩ := hlast.exists_margin hgap
  have hscanned : t.IsScanned := by
    refine Token.isScanned_of_mem_lex (hsource ▸ List.mem_append_right lead ?_)
    exact hmid.suffix.subset List.mem_cons_self
  have hback : ((t :: us).flatMap Token.text).head? ≠ some '\\' := by
    rw [List.flatMap_cons]
    exact Token.head?_ne_backslash_of_isMargin hscanned ht _
  have hiff := row_text_iff_of_pieces hsource hmid hback
  constructor
  · intro hrow
    refine ⟨(hiff.1 hrow).1, fun u hu hhangs => ?_⟩
    refine Token.not_awaitQuote_row front.text.toList ?_
    rw [hrow]
    exact Token.awaitQuote_map_unplaced.2 (awaitQuote_kept_iff.2 ⟨u, hu, hhangs⟩)
  · rintro ⟨hsurvives, hquoted⟩
    refine hiff.2 ⟨hsurvives, fun _ hawait => ?_⟩
    obtain ⟨u, hu, hhangs⟩ := awaitQuote_kept_iff.1 hawait
    exact hquoted u hu hhangs

/-- What stands behind white space keeps its tokens exactly if it survives. -/
theorem StandsAt.row_behind_iff :
    Token.row behind.text.toList = behind.kept.map Token.unplaced ↔ behind.Survives := by
  obtain ⟨lead, after, hsource, hpieces, haside⟩ := h.exists_pieces
  obtain ⟨gap, rest, hfront, hback, -⟩ := hdivides
  obtain ⟨mid, hmid, hrest⟩ := hpieces.halved hfront
  obtain ⟨last, hlast, hbehind⟩ := hrest.halved hback
  obtain ⟨before, hbefore⟩ := hlast.suffix.trans hmid.suffix
  rw [← hbefore, ← List.append_assoc] at hsource
  rw [row_text_iff_of_pieces hsource hbehind haside.backslash]
  refine and_iff_left fun hquoted => ?_
  rw [haside.quoted] at hquoted
  cases hquoted

/-- A passage is written as what stands in front of some white space, the white space and what stands
behind it. -/
theorem StandsAt.exists_written : ∃ gap, p.written = front.written ++ (gap ++ behind.written) ∧
    ∀ c ∈ gap, Text.isBlank c = true := by
  obtain ⟨gap, hgap, hkept⟩ := hdivides.exists_gap
  refine ⟨gap.flatMap Token.text, ?_, isBlank_of_whiteSpace (fun t ht => ?_) hgap.whiteSpace⟩
  · rw [written, hkept, List.flatMap_append, List.flatMap_append, written, written]
  · refine Token.isScanned_of_mem_lex (h.kept_subset ?_)
    rw [hkept]
    exact List.mem_append_right _ (List.mem_append_left _ ht)

end

end Passage

/-! ## Texts that are taken apart -/

/-- A custom media rule has a name without white space, and behind it a query. -/
theorem AtRule.exists_of_customMedia? {text name query : String}
    (h : customMedia? text = some (.customMedia name query)) : ∃ rest,
      text.toList = name.toList ++ rest ∧ name.toList ≠ [] ∧
        (∀ c ∈ name.toList, Text.isBlank c = false) ∧ query.toList = Text.trim rest ∧
          query.toList ≠ [] := by
  unfold customMedia? at h
  dsimp only at h
  split at h
  · next hname =>
    simp only [Option.some.injEq, Rule.customMedia.injEq] at h
    obtain ⟨rfl, rfl⟩ := h
    simp only [Bool.and_eq_true, decide_eq_true_eq, Bool.not_eq_true', List.isEmpty_eq_false_iff]
      at hname
    obtain ⟨⟨-, hlength⟩, hquery⟩ := hname
    rw [String.toList_ofList, String.toList_ofList]
    refine ⟨_, List.takeWhile_append_dropWhile.symm, ?_, fun c hc => ?_, rfl, hquery⟩
    · exact List.ne_nil_of_length_pos (Nat.lt_of_lt_of_le (by decide) hlength)
    · simpa using List.all_eq_true.1 List.all_takeWhile c hc
  · cases h

namespace Passage

/-- How a name and a query that a text has been taken apart into keep the tokens of its passage. -/
structure TakenApart (p : Passage) (name query : String) : Prop where
  /-- The name has the tokens in front of some white space exactly if the text is cut there, and what
  stands in front survives and is not the beginning of an address without the quotation mark behind. -/
  name_iff : (∃ us gap vs, p.kept = us ++ (gap ++ vs) ∧ Token.IsGap gap ∧
      Token.row name.toList = us.map Token.unplaced) ↔
    ∃ front behind, p.Divides front behind ∧ (front.text = name ∧ behind.text = query) ∧
      front.Survives ∧ ∀ t ∈ front.kept.getLast?, ¬t.HangsOnQuote
  /-- The query has the tokens behind some white space exactly if the text is cut there, and what stands
  behind survives. -/
  query_iff : (∃ us gap vs, p.kept = us ++ (gap ++ vs) ∧ Token.IsGap gap ∧
      Token.row query.toList = vs.map Token.unplaced) ↔
    ∃ front behind, p.Divides front behind ∧ (front.text = name ∧ behind.text = query) ∧
      behind.Survives

section

variable {css : List Char} {ts rest : List Token} {p front behind : Passage} {name query : String}
  (h : p.StandsAt (Token.lex .start css) ts rest) (hdivides : p.Divides front behind)
  (hmedia : AtRule.customMedia? p.text = some (.customMedia name query))

include h hdivides hmedia

/-- If the name has the tokens of what stands in front of the white space, the text has been cut there. -/
theorem StandsAt.texts_of_row_name
    (hrow : Token.row name.toList = front.kept.map Token.unplaced) :
    front.text = name ∧ behind.text = query := by
  obtain ⟨gap, hwritten, hgap⟩ := h.exists_written hdivides
  obtain ⟨rest, htext, hne, hsolid, hquery, -⟩ := AtRule.exists_of_customMedia? hmedia
  obtain ⟨lead, trail, htrim, hlead, htrail⟩ := Text.exists_trim p.written
  have hname : front.written = name.toList := Token.flatMap_text_of_row hrow
  rw [text, String.toList_ofList] at htext
  rw [htext, hwritten, hname] at htrim
  -- the name starts with no white space, so nothing has been trimmed in front of it
  have hnil : lead = [] :=
    Text.eq_nil_of_lead htrim hne (fun c hc => hsolid c (List.mem_of_mem_head? hc)) hlead
  rw [hnil, List.nil_append, List.append_assoc] at htrim
  have hrest := List.append_cancel_left htrim
  constructor
  · rw [text, hname, Text.trim_of_solid hsolid, String.ofList_toList]
  · rw [text, ← Text.trim_append_left hgap, hrest, Text.trim_append_right htrail, ← hquery,
      String.ofList_toList]

/-- If the query has the tokens of what stands behind the white space, the text has been cut there. -/
theorem StandsAt.texts_of_row_query
    (hrow : Token.row query.toList = behind.kept.map Token.unplaced) :
    front.text = name ∧ behind.text = query := by
  obtain ⟨gap, hwritten, hgap⟩ := h.exists_written hdivides
  obtain ⟨rest, htext, -, hsolid, hquery, hne⟩ := AtRule.exists_of_customMedia? hmedia
  obtain ⟨lead, trail, htrim, hlead, htrail⟩ := Text.exists_trim p.written
  obtain ⟨space, after, hrest, hspace, hafter⟩ := Text.exists_trim rest
  have hbehind : behind.written = query.toList := Token.flatMap_text_of_row hrow
  rw [text, String.toList_ofList] at htext
  rw [htext, hwritten, hbehind, hrest, ← hquery] at htrim
  have hcut : (front.written ++ gap) ++ query.toList =
      (lead ++ (name.toList ++ space) ++ query.toList) ++ (after ++ trail) := by
    simpa only [List.append_assoc] using htrim
  -- the query ends in no white space, so nothing has been trimmed behind it
  have hnil : after ++ trail = [] := by
    refine Text.eq_nil_of_trail hcut hne ?_ fun c hc => ?_
    · rw [hquery]
      exact Text.getLast?_trim rest
    · exact (List.mem_append.1 hc).elim (hafter c) (htrail c)
  rw [hnil, List.append_nil] at hcut
  have hfront := List.append_cancel_right hcut
  constructor
  · rw [text, ← Text.trim_append_right hgap, hfront, Text.trim_append_left hlead,
      Text.trim_append_right hspace, Text.trim_of_solid hsolid, String.ofList_toList]
  · rw [text, hbehind, hquery, Text.trim_trim, ← hquery, String.ofList_toList]

end

/-- **A text that is taken apart keeps its tokens exactly if it is cut where its passage is divided.**
The name of a custom media rule has the tokens in front of some white space of the passage, and the query
those behind it, if and only if the text is cut there and what stands there survives; and the name may not
be the beginning of an address without the quotation mark behind it. -/
theorem StandsAt.takenApart {css : List Char} {ts rest : List Token} {p : Passage}
    {name query : String} (h : p.StandsAt (Token.lex .start css) ts rest)
    (hmedia : AtRule.customMedia? p.text = some (.customMedia name query)) :
    p.TakenApart name query where
  name_iff := by
    constructor
    · rintro ⟨us, gap, vs, hkept, hgap, hrow⟩
      obtain ⟨spaces, vs, rfl, hspaces, hhead⟩ := Token.exists_spaces_append vs
      obtain ⟨-, -, -, hsolid, -, -⟩ := AtRule.exists_of_customMedia? hmedia
      have hlast : ∀ t ∈ us.getLast?, t.kind ≠ .whiteSpace := by
        intro t ht hkind
        have hmem := List.mem_of_getLast? ht
        obtain ⟨c, hc, hblank⟩ := Token.exists_blank hrow hmem hkind
        have hname : c ∈ us.flatMap Token.text :=
          List.mem_flatMap.2 ⟨t, hmem, List.mem_of_mem_head? hc⟩
        rw [Token.flatMap_text_of_row hrow] at hname
        exact absurd hblank (Bool.eq_false_iff.1 (hsolid c hname))
      rw [← List.append_assoc gap] at hkept
      obtain ⟨front, behind, hdivides, rfl, -⟩ :=
        exists_divides hkept (hgap.append_right hspaces) hlast hhead
      have htexts := h.texts_of_row_name hdivides hmedia hrow
      rw [← htexts.1] at hrow
      exact ⟨front, behind, hdivides, htexts, (h.row_front_iff hdivides).1 hrow⟩
    · rintro ⟨front, behind, hdivides, ⟨rfl, -⟩, hkeeps⟩
      obtain ⟨gap, hgap, hkept⟩ := hdivides.exists_gap
      exact ⟨_, gap, _, hkept, hgap, (h.row_front_iff hdivides).2 hkeeps⟩
  query_iff := by
    constructor
    · rintro ⟨us, gap, vs, hkept, hgap, hrow⟩
      obtain ⟨us, spaces, rfl, hspaces, hlast⟩ := Token.exists_append_spaces us
      obtain ⟨rest, -, -, -, hquery, -⟩ := AtRule.exists_of_customMedia? hmedia
      have hhead : ∀ t ∈ vs.head?, t.kind ≠ .whiteSpace := by
        intro t ht hkind
        obtain ⟨vs, rfl⟩ := List.head?_eq_some_iff.1 (Option.mem_def.1 ht)
        obtain ⟨c, hc, hblank⟩ := Token.exists_blank hrow List.mem_cons_self hkind
        have hfirst : c ∈ query.toList.head? := by
          rw [← Token.flatMap_text_of_row hrow, List.flatMap_cons, List.head?_append, hc]
          rfl
        rw [hquery] at hfirst
        exact absurd hblank (Bool.eq_false_iff.1 (Text.head?_trim rest c hfirst))
      rw [List.append_assoc, ← List.append_assoc spaces] at hkept
      obtain ⟨front, behind, hdivides, -, rfl⟩ :=
        exists_divides hkept (hgap.append_left hspaces) hlast hhead
      have htexts := h.texts_of_row_query hdivides hmedia hrow
      rw [← htexts.2] at hrow
      exact ⟨front, behind, hdivides, htexts, (h.row_behind_iff hdivides).1 hrow⟩
    · rintro ⟨front, behind, hdivides, ⟨-, rfl⟩, hkeeps⟩
      obtain ⟨gap, hgap, hkept⟩ := hdivides.exists_gap
      exact ⟨_, gap, _, hkept, hgap, (h.row_behind_iff hdivides).2 hkeeps⟩

/-- A text is cut within a token where a name holds an escaped space. -/
example : AtRule.customMedia? "--a\\ b c" = some (.customMedia "--a\\" "b c") := by
  cbv

end Passage

end Restyle.Css
