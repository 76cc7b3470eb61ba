import Restyle.Proofs.Comments
import Restyle.Proofs.ShortenedTexts

/-!
# Passages of a text

A passage is a part of the tokens of a source of which a text is kept.  The comments on its own level are
left out, which cuts it into pieces, and what is left is trimmed as a text, not as tokens
(`Passage.text`).

The text of a passage has the tokens of the passage under three conditions, and only then
(`Passage.StandsAt.row_text_iff`): the trimming takes nothing of the first and the last token, which it
does where an escape ends in a space or where white space of Unicode is none in a style sheet; the last
token does not hang on the line end behind it; and no two tokens are joined where a comment is left out
(`Passage.Survives`).  The first part of the module proves this of pieces in front of something that no
text runs across (`Token.Pieces.row_flatten_iff`), the second takes the white space off their ends.
-/

namespace Restyle.Css

namespace Token

/-! ## What tokens look like -/

namespace IsScanned

variable {t : Token} (h : t.IsScanned)

include h

theorem head?_of_comment (hkind : t.kind = .comment) : t.text.head? = some '/' := by
  obtain ⟨c, cs, hscan, htext⟩ := h
  obtain ⟨rest, rfl, -, -⟩ := commentShape_scan c cs (hscan.symm.trans hkind)
  rw [htext]
  rfl

theorem exists_singleKind (hmark : t.kind.isMark = true) :
    ∃ c, t.text = [c] ∧ t.kind = singleKind c := by
  obtain ⟨c, cs, hscan, htext⟩ := h
  rw [hscan] at hmark
  have hshape := (shape_scan c cs).mark hmark
  refine ⟨c, ?_, ?_⟩
  · rw [htext, hshape, List.take_zero]
  · rw [hscan, hshape]

end IsScanned

/-! ## What stands around a text -/

/-- White space and comments, which are left out at the ends of a text. -/
def isMargin (t : Token) : Bool :=
  t.kind == .whiteSpace || t.kind == .comment

theorem isMargin_of_whiteSpace {t : Token} (h : t.kind = .whiteSpace) : t.isMargin = true := by
  rw [isMargin, h]
  rfl

theorem isMargin_of_comment {t : Token} (h : t.kind = .comment) : t.isMargin = true := by
  rw [isMargin, h]
  rfl

/-- The kinds of tokens that a text ends in front of. -/
def Kind.endsText : Kind → Bool
  | .comma | .semicolon | .opening .curly | .closing .curly => true
  | _ => false

/-- The kinds of tokens that a text starts behind. -/
def Kind.leadsText : Kind → Bool
  | .comma | .semicolon | .colon | .opening .curly | .closing .curly | .atKeyword | .openMark
  | .closeMark => true
  | _ => false

/-- A text may start behind some tokens: the last of them that is no margin, if there is one, is of a
kind that leads a text. -/
def Fresh (ts : List Token) : Prop :=
  ∀ t ∈ (ts.filter (!·.isMargin)).getLast?, t.kind.leadsText = true

/-- A text may end in front of some tokens. -/
def Ends (ts : List Token) : Prop :=
  ∀ t ∈ ts.head?, t.kind.endsText = true

theorem fresh_nil : Fresh [] := nofun

theorem Fresh.append_margin {ts us : List Token} (h : Fresh ts)
    (hus : ∀ t ∈ us, t.isMargin = true) : Fresh (ts ++ us) := by
  have hnone : us.filter (!·.isMargin) = [] := by
    rw [List.filter_eq_nil_iff]
    intro t ht
    rw [hus t ht]
    exact Bool.false_ne_true
  unfold Fresh
  rwa [List.filter_append, hnone, List.append_nil]

theorem fresh_concat {t : Token} (h : t.kind.leadsText = true) (ts : List Token) :
    Fresh (ts ++ [t]) := by
  have hkeep : [t].filter (!·.isMargin) = [t] := by
    rw [List.filter_eq_self]
    intro u hu
    obtain rfl := List.mem_singleton.1 hu
    unfold isMargin
    cases hkind : u.kind with
    | whiteSpace | comment =>
      rw [hkind] at h
      cases h
    | _ => rfl
  intro u hu
  rw [List.filter_append, hkeep, List.getLast?_concat] at hu
  rwa [← Option.some.inj hu]

theorem ends_nil : Ends [] := nofun

theorem ends_cons {t : Token} (h : t.kind.endsText = true) (ts : List Token) : Ends (t :: ts) := by
  intro u hu
  rwa [← Option.some.inj hu]

/-- What a token that a text ends in front of is written as. -/
theorem IsScanned.text_of_endsText {t : Token} (h : t.IsScanned) (hends : t.kind.endsText = true) :
    ∃ c ∈ [',', ';', '\x7b', '\x7d'], t.text = [c] := by
  have hmark : t.kind.isMark = true := by
    cases hkind : t.kind with
    | comma | semicolon | opening | closing => rfl
    | _ =>
      rw [hkind] at hends
      cases hends
  obtain ⟨c, htext, hsingle⟩ := h.exists_singleKind hmark
  refine ⟨c, ?_, htext⟩
  rw [hsingle] at hends
  unfold singleKind at hends
  split at hends <;> first | exact absurd hends (by decide) | decide

theorem startsQuoted_cons {c : Char} (hspace : isSpace c = false) (hquote : isQuote c = false)
    (s : List Char) : startsQuoted (c :: s) = false := by
  have hnone : spaceLength (c :: s) = 0 := by
    rw [spaceLength, List.takeWhile_cons, hspace]
    rfl
  unfold startsQuoted
  rw [hnone]
  exact hquote

theorem head?_ne_backslash_of_isMargin {t : Token} (h : t.IsScanned) (ht : t.isMargin = true)
    (s : List Char) : (t.text ++ s).head? ≠ some '\\' := by
  obtain ⟨c, cs, htext⟩ := List.exists_cons_of_ne_nil h.text_ne_nil
  rw [htext]
  intro hback
  obtain rfl := Option.some.inj hback
  rcases Bool.or_eq_true_iff.1 ht with hkind | hkind
  · have hspaces := h.isSpace_of_whiteSpace (beq_iff_eq.1 hkind)
    rw [htext] at hspaces
    exact absurd (hspaces _ List.mem_cons_self) (by decide)
  · have hslash := h.head?_of_comment (beq_iff_eq.1 hkind)
    rw [htext] at hslash
    exact absurd (Option.some.inj hslash) (by decide)

/-- What may stand behind a text whatever that ends in: it goes on neither with a backslash nor with a
quotation mark behind white space. -/
structure Aside (s : List Char) : Prop where
  backslash : s.head? ≠ some '\\'
  quoted : startsQuoted s = false

/-- A text goes on neither with a backslash nor with a quotation mark behind what it ends in front
of. -/
theorem aside_margin {margin rest : List Token} (hscanned : ∀ t ∈ margin ++ rest, t.IsScanned)
    (hmargin : ∀ t ∈ margin, t.isMargin = true) (hends : Ends rest) :
    Aside ((margin ++ rest).flatMap text) := by
  induction margin with
  | nil =>
    cases rest with
    | nil => exact ⟨nofun, rfl⟩
    | cons t rest =>
      obtain ⟨c, hc, htext⟩ := (hscanned t List.mem_cons_self).text_of_endsText (hends t rfl)
      rw [List.nil_append, List.flatMap_cons, htext]
      refine ⟨fun hback => ?_, startsQuoted_cons ?_ ?_ _⟩
      · rw [Option.some.inj hback] at hc
        exact absurd hc (by decide)
      · exact eq_false_of_mem (by decide) hc
      · exact eq_false_of_mem (by decide) hc
  | cons t margin ih =>
    obtain ⟨ht, hmargin⟩ := List.forall_mem_cons.1 hmargin
    obtain ⟨hscan, hscanned⟩ := List.forall_mem_cons.1 hscanned
    rw [List.cons_append, List.flatMap_cons]
    refine ⟨head?_ne_backslash_of_isMargin hscan ht _, ?_⟩
    rcases Bool.or_eq_true_iff.1 ht with hkind | hkind
    · rw [startsQuoted_spaces (hscan.isSpace_of_whiteSpace (beq_iff_eq.1 hkind))]
      exact (ih hscanned hmargin).quoted
    · obtain ⟨cs, htext⟩ := List.head?_eq_some_iff.1 (hscan.head?_of_comment (beq_iff_eq.1 hkind))
      rw [htext]
      exact startsQuoted_cons (by decide) (by decide) _

/-! ## Pieces between comments -/

/-- Pieces at the front of a row of tokens with one comment between any two of them, and what is left
behind them. -/
inductive Pieces (behind : List Token) : List Token → List (List Token) → Prop
  | one (piece : List Token) : Pieces behind (piece ++ behind) [piece]
  | cons (piece : List Token) {comment : Token} {ts : List Token} {pieces : List (List Token)}
    (hcomment : comment.kind = .comment) (rest : Pieces behind ts pieces) :
    Pieces behind (piece ++ comment :: ts) (piece :: pieces)

/-- Each piece is read in front of the others as it is read alone, and so are the others: no token is
joined with another where a comment has been left out. -/
def Apart : List (List Token) → Prop
  | [] => True
  | piece :: pieces =>
    row (piece.flatMap text ++ pieces.flatten.flatMap text) =
      row (piece.flatMap text) ++ row (pieces.flatten.flatMap text) ∧ Apart pieces

theorem flatMap_text_map_unplaced (ts : List Token) :
    (ts.map unplaced).flatMap text = ts.flatMap text := by
  rw [List.flatMap_map]
  rfl

/-- Tokens that hang on a line end do so wherever they stand. -/
theorem forall_getLast?_unplaced {ts : List Token} (h : ∀ t ∈ ts.getLast?, ¬t.HangsOnLineEnd) :
    ∀ t ∈ (ts.map unplaced).getLast?, ¬t.HangsOnLineEnd := by
  intro t ht
  rw [List.getLast?_map] at ht
  obtain ⟨u, hu, rfl⟩ := Option.map_eq_some_iff.1 ht
  exact h u hu

theorem awaitQuote_map_unplaced {ts : List Token} :
    AwaitQuote (ts.map unplaced) ↔ AwaitQuote ts := by
  constructor
  · rintro ⟨front, t, spaces, hsplit, hspaces, ht⟩
    obtain ⟨front', behind, rfl, rfl, hbehind⟩ := List.map_eq_append_iff.1 hsplit
    obtain ⟨t', spaces', rfl, rfl, rfl⟩ := List.map_eq_cons_iff.1 hbehind
    exact ⟨front', t', spaces', rfl, fun u hu => hspaces u.unplaced (List.mem_map_of_mem hu), ht⟩
  · rintro ⟨front, t, spaces, rfl, hspaces, ht⟩
    refine ⟨front.map unplaced, t.unplaced, spaces.map unplaced, by rw [List.map_append, List.map_cons],
      fun u hu => ?_, ht⟩
    obtain ⟨v, hv, rfl⟩ := List.mem_map.1 hu
    exact hspaces v hv

/-- `row_of_append` for tokens with their places. -/
theorem row_of_append_unplaced {s : List Char} (hback : s.head? ≠ some '\\') {ts us : List Token}
    (h : row (ts.flatMap text ++ s) = (ts ++ us).map unplaced)
    (hlast : startsNewline s = true → ∀ t ∈ ts.getLast?, ¬t.HangsOnLineEnd)
    (hquoted : startsQuoted s = true → ¬AwaitQuote ts) :
    row (ts.flatMap text) = ts.map unplaced := by
  rw [List.map_append, ← flatMap_text_map_unplaced ts] at h
  have hrow := row_of_append hback h (fun hnewline => forall_getLast?_unplaced (hlast hnewline))
    fun hs => mt awaitQuote_map_unplaced.1 (hquoted hs)
  rwa [flatMap_text_map_unplaced] at hrow

theorem row_behind_unplaced {cs : List Char} {ts us : List Token}
    (h : row cs = (ts ++ us).map unplaced) : row (us.flatMap text) = us.map unplaced := by
  rw [List.map_append] at h
  have hbehind := row_behind h
  rwa [flatMap_text_map_unplaced] at hbehind

theorem aside_comment {t : Token} (h : t.IsScanned) (hkind : t.kind = .comment) (s : List Char) :
    Aside (t.text ++ s) ∧ startsNewline (t.text ++ s) = false := by
  refine ⟨⟨head?_ne_backslash_of_isMargin h (isMargin_of_comment hkind) s, ?_⟩, ?_⟩ <;>
    obtain ⟨rest, hrest⟩ := List.head?_eq_some_iff.1 (h.head?_of_comment hkind) <;>
    rw [hrest, List.cons_append]
  · exact startsQuoted_cons (by decide) (by decide) _
  · rfl

/-- **Pieces keep their tokens exactly if they stay apart.**  The pieces of a row of tokens, written one
behind the other without the comments between them, are read as just these tokens if and only if the
pieces stay apart, the last token does not hang on a line end, and none of what stands in front of a
quotation mark hangs on that. -/
theorem Pieces.row_flatten_iff {behind ts : List Token} {pieces : List (List Token)}
    (h : Pieces behind ts pieces) (hscanned : ∀ t ∈ ts, t.IsScanned)
    (hrow : row (ts.flatMap text) = ts.map unplaced)
    (hbehind : (behind.flatMap text).head? ≠ some '\\') :
    row (pieces.flatten.flatMap text) = pieces.flatten.map unplaced ↔
      Apart pieces ∧ (∀ t ∈ pieces.flatten.getLast?, ¬t.HangsOnLineEnd) ∧
        (startsQuoted (behind.flatMap text) = true → ¬AwaitQuote pieces.flatten) := by
  have hends : ∀ {us : List Token}, row (us.flatMap text) = us.map unplaced →
      (∀ t ∈ us.getLast?, ¬t.HangsOnLineEnd) ∧
        (startsQuoted (behind.flatMap text) = true → ¬AwaitQuote us) := by
    intro us hus
    refine ⟨fun t ht => ?_, fun _ hawait => ?_⟩
    · refine @not_hangsOnLineEnd_of_getLast? (us.flatMap text) t.unplaced ?_
      rw [hus, List.getLast?_map, Option.mem_def.1 ht]
      rfl
    · refine not_awaitQuote_row (us.flatMap text) ?_
      rw [hus]
      exact awaitQuote_map_unplaced.2 hawait
  induction h with
  | one piece =>
    rw [List.flatten_singleton]
    constructor
    · intro hpiece
      refine ⟨⟨?_, trivial⟩, hends hpiece⟩
      rw [List.flatten_nil, List.flatMap_nil, row_nil, List.append_nil, List.append_nil]
    · rintro ⟨-, hlast, hquoted⟩
      rw [List.flatMap_append] at hrow
      exact row_of_append_unplaced hbehind hrow (fun _ => hlast) hquoted
  | @cons piece comment ts pieces hcomment rest ih =>
    have hback : row (ts.flatMap text) = ts.map unplaced := by
      rw [List.append_cons] at hrow
      exact row_behind_unplaced hrow
    have hts : ∀ t ∈ ts, t.IsScanned := fun t ht => hscanned t (by simp [ht])
    obtain ⟨haside, hnewline⟩ := aside_comment (hscanned comment (by simp)) hcomment
      (ts.flatMap text)
    have hpiece : row (piece.flatMap text) = piece.map unplaced := by
      rw [List.flatMap_append, List.flatMap_cons] at hrow
      refine row_of_append_unplaced haside.backslash hrow (fun hstarts => ?_) fun hstarts => ?_
      · rw [hnewline] at hstarts
        cases hstarts
      · rw [haside.quoted] at hstarts
        cases hstarts
    have hiff := ih hts hback
    rw [List.flatten_cons, Apart, hpiece]
    constructor
    · intro hall
      have hrest := row_behind_unplaced hall
      refine ⟨⟨?_, (hiff.1 hrest).1⟩, hends hall⟩
      rw [hrest, ← List.flatMap_append, hall, List.map_append]
    · rintro ⟨⟨hjoined, hapart⟩, hlast, hquoted⟩
      have hrest := hiff.2
        ⟨hapart, fun t ht => hlast t ?_, fun hs hawait => hquoted hs (hawait.behind piece)⟩
      · rw [List.flatMap_append, hjoined, hrest, List.map_append]
      · rw [List.getLast?_append, Option.mem_def.1 ht]
        rfl

/-! ## White space at the ends -/

/-- White space in front of a row of tokens, and the rest. -/
theorem exists_spaces_append (ts : List Token) : ∃ spaces body, ts = spaces ++ body ∧
    (∀ t ∈ spaces, t.kind = .whiteSpace) ∧ ∀ t ∈ body.head?, t.kind ≠ .whiteSpace := by
  refine ⟨ts.takeWhile (·.kind == .whiteSpace), ts.dropWhile (·.kind == .whiteSpace),
    List.takeWhile_append_dropWhile.symm, fun t ht => ?_, fun t ht => ?_⟩
  · have hkind := List.mem_takeWhile_imp (p := fun t : Token => t.kind == .whiteSpace) ht
    exact beq_iff_eq.1 hkind
  · have hhead := List.head?_dropWhile_not (fun t : Token => t.kind == .whiteSpace) ts
    rw [Option.mem_def.1 ht] at hhead
    simpa using hhead

/-- White space behind a row of tokens, and what stands in front of it. -/
theorem exists_append_spaces (ts : List Token) : ∃ body spaces, ts = body ++ spaces ∧
    (∀ t ∈ spaces, t.kind = .whiteSpace) ∧ ∀ t ∈ body.getLast?, t.kind ≠ .whiteSpace := by
  obtain ⟨spaces, body, hsplit, hspaces, hhead⟩ := exists_spaces_append ts.reverse
  refine ⟨body.reverse, spaces.reverse, ?_, fun t ht => hspaces t (List.mem_reverse.1 ht), ?_⟩
  · rw [← List.reverse_append, ← hsplit, List.reverse_reverse]
  · rwa [List.getLast?_reverse]

/-- White space in front of some pieces, and comments among it, can be left in front of the first of
them. -/
theorem Pieces.exists_margin_append {behind ts : List Token} {pieces : List (List Token)}
    (h : Pieces behind ts pieces) : ∃ margin here pieces' spaces, ts = margin ++ here ∧
      (∀ t ∈ margin, t.isMargin = true) ∧ Pieces behind here pieces' ∧
      pieces.flatten = spaces ++ pieces'.flatten ∧ (∀ t ∈ spaces, t.kind = .whiteSpace) ∧
      ∀ t ∈ pieces'.flatten.head?, t.kind ≠ .whiteSpace := by
  induction h with
  | one piece =>
    obtain ⟨spaces, body, rfl, hspaces, hhead⟩ := exists_spaces_append piece
    refine ⟨spaces, body ++ behind, [body], spaces, List.append_assoc _ _ _,
      fun t ht => isMargin_of_whiteSpace (hspaces t ht), .one body, ?_, hspaces, ?_⟩
    · rw [List.flatten_singleton, List.flatten_singleton]
    · rwa [List.flatten_singleton]
  | @cons piece comment ts pieces hcomment rest ih =>
    obtain ⟨spaces, body, rfl, hspaces, hhead⟩ := exists_spaces_append piece
    have hmargin : ∀ t ∈ spaces, t.isMargin = true := fun t ht =>
      isMargin_of_whiteSpace (hspaces t ht)
    cases body with
    | nil =>
      -- the whole piece is white space, so it goes with the comment
      obtain ⟨margin, here, pieces', spaces', rfl, hmargin', hpieces, hflatten, hspaces', hhead'⟩ := ih
      refine ⟨spaces ++ comment :: margin, here, pieces', spaces ++ spaces', ?_, ?_, hpieces, ?_,
        List.forall_mem_append.2 ⟨hspaces, hspaces'⟩, hhead'⟩
      · rw [List.append_nil, List.append_assoc, List.cons_append]
      · exact List.forall_mem_append.2
          ⟨hmargin, List.forall_mem_cons.2 ⟨isMargin_of_comment hcomment, hmargin'⟩⟩
      · rw [List.flatten_cons, List.append_nil, hflatten, List.append_assoc]
    | cons t body =>
      refine ⟨spaces, t :: body ++ comment :: ts, (t :: body) :: pieces, spaces,
        List.append_assoc _ _ _, hmargin, .cons (t :: body) hcomment rest, ?_, hspaces, ?_⟩
      · rw [List.flatten_cons, List.flatten_cons, List.append_assoc]
      · exact hhead

theorem Pieces.suffix {behind ts : List Token} {pieces : List (List Token)}
    (h : Pieces behind ts pieces) : behind <:+ ts := by
  induction h with
  | one piece => exact List.suffix_append piece behind
  | cons piece hcomment rest ih =>
    exact (ih.trans (List.suffix_cons _ _)).trans (List.suffix_append piece _)

theorem Pieces.flatten_subset {behind ts : List Token} {pieces : List (List Token)}
    (h : Pieces behind ts pieces) : pieces.flatten ⊆ ts := by
  induction h with
  | one piece =>
    rw [List.flatten_singleton]
    exact List.subset_append_left _ _
  | cons piece hcomment rest ih =>
    rw [List.flatten_cons]
    refine List.append_subset.2 ⟨List.subset_append_left _ _, fun t ht => ?_⟩
    exact List.mem_append_right _ (List.mem_cons_of_mem _ (ih ht))

theorem Pieces.isMargin_of_flatten_eq_nil {behind ts : List Token} {pieces : List (List Token)}
    (h : Pieces behind ts pieces) (hnil : pieces.flatten = []) :
    ∃ comments, ts = comments ++ behind ∧ ∀ t ∈ comments, t.isMargin = true := by
  induction h with
  | one piece =>
    rw [List.flatten_singleton] at hnil
    exact ⟨[], by rw [hnil], List.forall_mem_nil _⟩
  | @cons piece comment ts pieces hcomment rest ih =>
    rw [List.flatten_cons, List.append_eq_nil_iff] at hnil
    obtain ⟨comments, rfl, hcomments⟩ := ih hnil.2
    refine ⟨comment :: comments, by rw [hnil.1]; rfl, ?_⟩
    exact List.forall_mem_cons.2 ⟨isMargin_of_comment hcomment, hcomments⟩

/-- White space behind some pieces, and comments among it, can be left behind the last of them. -/
theorem Pieces.exists_append_margin {behind ts : List Token} {pieces : List (List Token)}
    (h : Pieces behind ts pieces) : ∃ margin pieces' spaces, Pieces (margin ++ behind) ts pieces' ∧
      (∀ t ∈ margin, t.isMargin = true) ∧ pieces.flatten = pieces'.flatten ++ spaces ∧
      (∀ t ∈ spaces, t.kind = .whiteSpace) ∧
      ∀ t ∈ pieces'.flatten.getLast?, t.kind ≠ .whiteSpace := by
  induction h with
  | one piece =>
    obtain ⟨body, spaces, rfl, hspaces, hlast⟩ := exists_append_spaces piece
    refine ⟨spaces, [body], spaces, ?_, fun t ht => isMargin_of_whiteSpace (hspaces t ht), ?_,
      hspaces, ?_⟩
    · rw [List.append_assoc]
      exact .one body
    · rw [List.flatten_singleton, List.flatten_singleton]
    · rwa [List.flatten_singleton]
  | @cons piece comment ts pieces hcomment rest ih =>
    obtain ⟨margin, pieces', spaces, hpieces, hmargin, hflatten, hspaces, hlast⟩ := ih
    by_cases hnil : pieces'.flatten = []
    · -- nothing but comments follows, so white space behind the piece goes with them
      obtain ⟨body, spaces', rfl, hspaces', hlast'⟩ := exists_append_spaces piece
      obtain ⟨comments, rfl, hcomments⟩ := hpieces.isMargin_of_flatten_eq_nil hnil
      refine ⟨spaces' ++ comment :: comments ++ margin, [body], spaces' ++ spaces, ?_, ?_, ?_,
        List.forall_mem_append.2 ⟨hspaces', hspaces⟩, ?_⟩
      · have hone : Pieces (spaces' ++ comment :: comments ++ margin ++ behind) (body ++ _) [body] :=
          .one body
        simpa using hone
      · refine List.forall_mem_append.2 ⟨List.forall_mem_append.2 ⟨?_, ?_⟩, hmargin⟩
        · exact fun t ht => isMargin_of_whiteSpace (hspaces' t ht)
        · exact List.forall_mem_cons.2 ⟨isMargin_of_comment hcomment, hcomments⟩
      · rw [List.flatten_cons, hflatten, hnil, List.nil_append, List.flatten_singleton,
          List.append_assoc]
      · rwa [List.flatten_singleton]
    · refine ⟨margin, piece :: pieces', spaces, .cons piece hcomment hpieces, hmargin, ?_, hspaces, ?_⟩
      · rw [List.flatten_cons, List.flatten_cons, hflatten, List.append_assoc]
      · rw [List.flatten_cons, List.getLast?_append, List.getLast?_eq_some_getLast hnil]
        rwa [List.getLast?_eq_some_getLast hnil] at hlast

end Token

/-! ## Passages -/

/-- A part of the tokens of a source of which a text is kept: the pieces between the comments that are
left out, without white space at their ends.  Comments inside brackets are kept as they stand. -/
structure Passage where
  pieces : List (List Token)
  head : ∀ t ∈ pieces.flatten.head?, t.kind ≠ .whiteSpace
  last : ∀ t ∈ pieces.flatten.getLast?, t.kind ≠ .whiteSpace

namespace Passage

/-- The tokens of a passage, less the comments that are left out. -/
def kept (p : Passage) : List Token := p.pieces.flatten

/-- What these tokens are written as. -/
def written (p : Passage) : List Char := p.kept.flatMap Token.text

/-- The text that is kept of a passage. -/
def text (p : Passage) : String := String.ofList (Text.trim p.written)

/-- A passage survives if no white space of Unicode stands at its ends, its last token does not hang on
a line end, and no tokens are joined where a comment is left out. -/
structure Survives (p : Passage) : Prop where
  trimmed : Text.trim p.written = p.written
  last : ∀ t ∈ p.kept.getLast?, ¬t.HangsOnLineEnd
  apart : Token.Apart p.pieces

/-- A passage stands at the front of the tokens `ts` of a source.  It starts behind something that a text
may start behind and ends in front of `rest`, white space and comments at its ends apart. -/
structure StandsAt (source ts rest : List Token) (p : Passage) : Prop where
  fresh : ∃ front, source = front ++ ts ∧ Token.Fresh front
  pieces : ∃ margin, (∀ t ∈ margin, t.isMargin = true) ∧ Token.Pieces (margin ++ rest) ts p.pieces
  ends : Token.Ends rest

theorem StandsAt.suffix {source ts rest : List Token} {p : Passage} (h : p.StandsAt source ts rest) :
    rest <:+ ts := by
  obtain ⟨margin, -, hpieces⟩ := h.pieces
  exact (List.suffix_append margin rest).trans hpieces.suffix

theorem StandsAt.kept_subset {source ts rest : List Token} {p : Passage}
    (h : p.StandsAt source ts rest) : p.kept ⊆ source := by
  obtain ⟨⟨front, rfl, -⟩, ⟨margin, -, hpieces⟩, -⟩ := h
  exact List.Subset.trans hpieces.flatten_subset (List.subset_append_right front ts)

theorem isBlank_of_isSpace {c : Char} (h : isSpace c = true) : Text.isBlank c = true := by
  simp only [isSpace, isNewline, Bool.or_eq_true, beq_iff_eq] at h
  rcases h with (rfl | rfl) | (rfl | rfl) | rfl <;> decide

theorem isBlank_of_whiteSpace {ts : List Token} (hscanned : ∀ t ∈ ts, t.IsScanned)
    (h : ∀ t ∈ ts, t.kind = .whiteSpace) : ∀ c ∈ ts.flatMap Token.text, Text.isBlank c = true := by
  intro c hc
  obtain ⟨t, ht, hct⟩ := List.mem_flatMap.1 hc
  exact isBlank_of_isSpace ((hscanned t ht).isSpace_of_whiteSpace (h t ht) c hct)

/-- Pieces in front of something that a text ends in front of make up a passage, with the text that is
left when white space is taken off their ends. -/
theorem exists_standsAt {source front ts rest : List Token} {pieces : List (List Token)}
    (hsource : source = front ++ ts) (hscanned : ∀ t ∈ source, t.IsScanned)
    (hfresh : Token.Fresh front) (hpieces : Token.Pieces rest ts pieces) (hends : Token.Ends rest) :
    ∃ (p : Passage) (here : List Token), here <:+ ts ∧ p.StandsAt source here rest ∧
      p.text = String.ofList (Text.trim (pieces.flatten.flatMap Token.text)) := by
  have hts : ∀ t ∈ ts, t.IsScanned := fun t ht =>
    hscanned t (hsource ▸ List.mem_append_right front ht)
  obtain ⟨margin, here, pieces', spaces, rfl, hmargin, hpieces', hflatten, hspaces, hhead⟩ :=
    hpieces.exists_margin_append
  obtain ⟨margin', pieces'', spaces', hpieces'', hmargin', hflatten', hspaces', hlast⟩ :=
    hpieces'.exists_append_margin
  have hhead' : ∀ t ∈ pieces''.flatten.head?, t.kind ≠ .whiteSpace := by
    intro t ht
    refine hhead t ?_
    rw [hflatten', List.head?_append, Option.mem_def.1 ht]
    rfl
  refine ⟨⟨pieces'', hhead', hlast⟩, here, List.suffix_append _ _,
    ⟨⟨front ++ margin, ?_, hfresh.append_margin hmargin⟩, ⟨margin', hmargin', hpieces''⟩, hends⟩, ?_⟩
  · rw [hsource, List.append_assoc]
  · -- white space at the ends is trimmed
    have hmem := hpieces.flatten_subset
    rw [hflatten, hflatten'] at hmem ⊢
    have hfront : ∀ c ∈ spaces.flatMap Token.text, Text.isBlank c = true :=
      isBlank_of_whiteSpace (fun t ht => hts t (hmem (List.mem_append_left _ ht))) hspaces
    have hback : ∀ c ∈ spaces'.flatMap Token.text, Text.isBlank c = true :=
      isBlank_of_whiteSpace (fun t ht => hts t (hmem (List.mem_append_right _
        (List.mem_append_right _ ht)))) hspaces'
    rw [List.flatMap_append, List.flatMap_append, Text.trim_append_left hfront,
      Text.trim_append_right hback]
    rfl

/-- A passage keeps its tokens exactly if it survives and does not hang on a quotation mark behind it. -/
theorem row_text_iff_of_pieces {css : List Char} {front ts behind : List Token} {p : Passage}
    (hsource : Token.lex .start css = front ++ ts) (hpieces : Token.Pieces behind ts p.pieces)
    (hback : (behind.flatMap Token.text).head? ≠ some '\\') :
    Token.row p.text.toList = p.kept.map Token.unplaced ↔
      p.Survives ∧ (Token.startsQuoted (behind.flatMap Token.text) = true → ¬Token.AwaitQuote p.kept) := by
  have hrow : Token.row (ts.flatMap Token.text) = ts.map Token.unplaced := by
    refine @Token.row_behind_unplaced css front ts ?_
    rw [← hsource]
    rfl
  have hscanned : ∀ t ∈ ts, t.IsScanned := fun t ht =>
    Token.isScanned_of_mem_lex (hsource ▸ List.mem_append_right front ht)
  have hiff := hpieces.row_flatten_iff hscanned hrow hback
  rw [text, String.toList_ofList]
  constructor
  · intro hkept
    have htrimmed : Text.trim p.written = p.written := by
      have htext := Token.flatMap_text_row (Text.trim p.written)
      rw [hkept, Token.flatMap_text_map_unplaced] at htext
      exact htext.symm
    rw [htrimmed] at hkept
    obtain ⟨hapart, hlast, hquoted⟩ := hiff.1 hkept
    exact ⟨⟨htrimmed, hlast, hapart⟩, hquoted⟩
  · rintro ⟨⟨htrimmed, hlast, hapart⟩, hquoted⟩
    rw [htrimmed]
    exact hiff.2 ⟨hapart, hlast, hquoted⟩

/-- What stands behind the pieces of a passage, white space and comments included. -/
theorem StandsAt.exists_pieces {css : List Char} {ts rest : List Token} {p : Passage}
    (h : p.StandsAt (Token.lex .start css) ts rest) : ∃ front behind,
      Token.lex .start css = front ++ ts ∧ Token.Pieces behind ts p.pieces ∧
        Token.Aside (behind.flatMap Token.text) := by
  obtain ⟨⟨front, hsource, -⟩, ⟨margin, hmargin, hpieces⟩, hends⟩ := h
  refine ⟨front, margin ++ rest, hsource, hpieces, Token.aside_margin (fun t ht => ?_) hmargin hends⟩
  exact Token.isScanned_of_mem_lex
    (hsource ▸ List.mem_append_right front (hpieces.suffix.subset ht))

/-- **A passage keeps its tokens exactly if it survives.**  The text of a passage of a source has just
the tokens of the passage, if and only if no white space of Unicode stands at its ends, its last token
does not hang on a line end, and no tokens are joined where a comment is left out. -/
theorem StandsAt.row_text_iff {css : List Char} {ts rest : List Token} {p : Passage}
    (h : p.StandsAt (Token.lex .start css) ts rest) :
    Token.row p.text.toList = p.kept.map Token.unplaced ↔ p.Survives := by
  obtain ⟨front, behind, hsource, hpieces, haside⟩ := h.exists_pieces
  rw [row_text_iff_of_pieces hsource hpieces haside.backslash]
  refine and_iff_left fun hquoted => ?_
  rw [haside.quoted] at hquoted
  cases hquoted

/-! ## Passages in their order -/

/-- Passages that stand in a source one behind the other, from the tokens `ts` to the tokens `us`. -/
inductive InOrder (source : List Token) : List Token → List Passage → List Token → Prop
  | nil {ts us : List Token} (h : us <:+ ts) : InOrder source ts [] us
  | cons {ts here rest us : List Token} {p : Passage} {ps : List Passage} (hsuffix : here <:+ ts)
    (h : p.StandsAt source here rest) (behind : InOrder source rest ps us) :
    InOrder source ts (p :: ps) us

namespace InOrder

variable {source ts us vs : List Token} {ps qs : List Passage}

theorem of_suffix (h : InOrder source us ps vs) (hsuffix : us <:+ ts) : InOrder source ts ps vs := by
  cases h with
  | nil hvs => exact .nil (hvs.trans hsuffix)
  | cons hhere h behind => exact .cons (hhere.trans hsuffix) h behind

theorem append (h : InOrder source ts ps us) (h' : InOrder source us qs vs) :
    InOrder source ts (ps ++ qs) vs := by
  induction h with
  | nil hus => exact h'.of_suffix hus
  | cons hhere h _ ih => exact .cons hhere h (ih h')

theorem suffix (h : InOrder source ts ps us) : us <:+ ts := by
  induction h with
  | nil h => exact h
  | cons hhere h _ ih => exact (ih.trans h.suffix).trans hhere

/-- Some of the passages stand in the same order. -/
theorem sublist (h : InOrder source ts ps us) (hqs : List.Sublist qs ps) : InOrder source ts qs us := by
  induction h generalizing qs with
  | nil h =>
    obtain rfl := List.sublist_nil.1 hqs
    exact .nil h
  | @cons ts here rest us p ps hhere h behind ih =>
    rcases List.sublist_cons_iff.1 hqs with hqs | ⟨rest, rfl, hrest⟩
    · exact (ih hqs).of_suffix (h.suffix.trans hhere)
    · exact .cons hhere h (ih hrest)

theorem standsAt_of_mem (h : InOrder source ts ps us) {p : Passage} (hp : p ∈ ps) :
    ∃ here rest, p.StandsAt source here rest := by
  induction h with
  | nil => cases hp
  | cons hhere h _ ih =>
    rcases List.mem_cons.1 hp with rfl | hp
    · exact ⟨_, _, h⟩
    · exact ih hp

end InOrder

end Passage

end Restyle.Css
