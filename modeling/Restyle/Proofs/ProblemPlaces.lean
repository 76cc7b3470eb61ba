import Restyle.Proofs.Extents
import Restyle.Proofs.Levels
import Restyle.Proofs.StrictReading

/-!
# Where problems are

Problems are noted in the order of the text, and each of them is somewhere in it
(`Stylesheet.problems_ascend`).  A problem may be noted when more of the text has been passed over, and
the place of a refused block is one that stands in front of what is read next, so neither is evident from
the order in which things are read.

`Reading.Located lo m hi` says of a reader that the problems it notes ascend from one place to another.
Readers one after the other are located side by side (`Located.bind`).  What is cut off a level has its
places between the start of the level and the start of what is left (`Statement.fits_cut`), and that is
where its reader is located.
-/

namespace Restyle.Css

/-! ## Ascending problems -/

/-- Problems that ascend from one place to another, each of them as `P` says. -/
inductive Ascends (P : Problem → Prop) : Location → List Problem → Location → Prop
  | nil {lo hi : Location} (h : lo ≤ hi) : Ascends P lo [] hi
  | cons {lo hi : Location} {p : Problem} {ps : List Problem} (h : lo ≤ p.location) (hp : P p)
    (rest : Ascends P p.location ps hi) : Ascends P lo (p :: ps) hi

namespace Ascends

variable {P : Problem → Prop} {lo mid hi : Location} {ps qs : List Problem}

theorem of_le (h : Ascends P mid ps hi) (hle : lo ≤ mid) : Ascends P lo ps hi := by
  cases h with
  | nil h => exact .nil (Location.le_trans hle h)
  | cons h hp rest => exact .cons (Location.le_trans hle h) hp rest

theorem append (h : Ascends P lo ps mid) (h' : Ascends P mid qs hi) : Ascends P lo (ps ++ qs) hi := by
  induction h with
  | nil h => exact h'.of_le h
  | cons h hp _ ih => exact .cons h hp (ih h')

theorem forall_mem (h : Ascends P lo ps hi) : ∀ p ∈ ps, lo ≤ p.location ∧ P p := by
  induction h with
  | nil => exact nofun
  | cons h hp _ ih =>
    refine List.forall_mem_cons.2 ⟨⟨h, hp⟩, ?_⟩
    intro q hq
    exact ⟨Location.le_trans h (ih q hq).1, (ih q hq).2⟩

/-- No problem stands in front of one that has been noted before it. -/
theorem pairwise (h : Ascends P lo ps hi) :
    ps.Pairwise fun p q => p.location ≤ q.location := by
  induction h with
  | nil => exact .nil
  | cons h hp rest ih => exact .cons (fun q hq => (rest.forall_mem q hq).1) ih

end Ascends

namespace Reading

variable {α β : Type} {P : Location → Prop} {lo mid hi : Location}

/-- A silent reader that gets through and whose problems ascend from one place to another.  They carry
the name of the text. -/
def Located (P : Location → Prop) (lo : Location) (m : Reading α) (hi : Location) : Prop :=
  ∀ source, ∃ notes a, m ⟨source, true⟩ = (notes, .ok a) ∧
    Ascends (fun p => P p.location ∧ p.source = source) lo (notes.filterMap Notice.problem?) hi

theorem located_pure (a : α) (h : lo ≤ hi) : Located P lo (pure a : Reading α) hi :=
  fun _ => ⟨[], a, rfl, .nil h⟩

theorem located_note (line : Nat) (h : lo ≤ hi) : Located P lo (note (.strayBracket line)) hi :=
  fun _ => ⟨[.strayBracket line], (), rfl, .nil h⟩

theorem located_report (cause : Problem.Cause) {place : Location} (hlo : lo ≤ place) (hP : P place)
    (hhi : place ≤ hi) : Located P lo (report cause place) hi :=
  fun source => ⟨[.problem ⟨cause, place, source⟩], (), rfl, .cons hlo ⟨hP, rfl⟩ (.nil hhi)⟩

/-- Readers one after the other are located side by side. -/
theorem Located.bind {m : Reading α} {f : α → Reading β} (hm : Located P lo m mid)
    (hf : ∀ a, Located P mid (f a) hi) : Located P lo (m >>= f) hi := by
  intro source
  obtain ⟨notes, a, hrun, hascends⟩ := hm source
  obtain ⟨notes', b, hrun', hascends'⟩ := hf a source
  refine ⟨notes ++ notes', b, ?_, ?_⟩
  · rw [bind_run, hrun]
    simp only [hrun']
  · rw [List.filterMap_append]
    exact hascends.append hascends'

/-- A reader that has nothing more to note. -/
theorem Located.bind_pure {m : Reading α} (f : α → β) (hm : Located P lo m hi) :
    Located P lo (m >>= fun a => pure (f a)) hi :=
  hm.bind fun _ => located_pure _ (Location.le_refl _)

theorem Located.map {m : Reading α} (f : α → β) (hm : Located P lo m hi) :
    Located P lo (f <$> m) hi := by
  rw [map_eq_pure_bind]
  exact hm.bind_pure f

theorem Located.of_le {m : Reading α} (h : Located P mid m hi) (hle : lo ≤ mid) :
    Located P lo m hi := by
  intro source
  obtain ⟨notes, a, hrun, hascends⟩ := h source
  exact ⟨notes, a, hrun, hascends.of_le hle⟩

end Reading

open Component Reading

/-! ## Declarations -/

section

variable {P : Location → Prop} {lo mid hi : Location}

theorem located_readComment (body text : List Char) {place : Location} (hlo : lo ≤ place) (hP : P place)
    (hhi : place ≤ hi) : Located P lo (readComment body text place) hi := by
  unfold readComment
  split
  · exact located_pure _ (Location.le_trans hlo hhi)
  · exact (located_report _ hlo hP hhi).bind_pure _

/-- Pieces of a level side by side, with something between them or not. -/
inductive Rows (P : Location → Prop) : Location → List (List Component) → Location → Prop
  | nil {lo hi : Location} (h : lo ≤ hi) : Rows P lo [] hi
  | cons {lo mid next hi : Location} {row : List Component} {rows : List (List Component)}
    (h : Spans P lo row mid) (hle : mid ≤ next) (rest : Rows P next rows hi) :
    Rows P lo (row :: rows) hi

/-- A component joins the first piece of what stands behind it, or it parts it from an empty one. -/
theorem rows_splitOn_cons {p : Component → Bool} {c : Component} {cs : List Component}
    (h : Rows P mid (splitOn p cs) hi) (hlo : P lo) (hle : lo ≤ mid)
    (hcons : ∀ ds next, Spans P mid ds next → Spans P lo (c :: ds) next) :
    Rows P lo (splitOn p (c :: cs)) hi := by
  rw [splitOn]
  split
  · exact .cons (.nil hlo) hle h
  · split
    · next hnil => exact absurd hnil (splitOn_ne_nil p cs)
    · next d ds hsplit =>
      rw [hsplit] at h
      cases h with
      | cons hspans hnext rest => exact .cons (hcons _ _ hspans) hnext rest

/-- Cutting a level leaves pieces side by side. -/
theorem rows_splitOn {cs : List Component} (p : Component → Bool) (h : Spans P lo cs hi) :
    Rows P lo (splitOn p cs) hi := by
  induction h with
  | nil h => exact .cons (.nil h) (Location.le_refl _) (.nil (Location.le_refl _))
  | leaf h rest ih =>
    exact rows_splitOn_cons ih h (Token.start_le_stop _) fun _ _ hspans => .leaf h hspans
  | closed h inside rest _ ih =>
    exact rows_splitOn_cons ih h (Location.le_trans (Token.start_le_stop _)
      (Location.le_trans inside.le (Token.start_le_stop _))) fun _ _ hspans => .closed h inside hspans
  | cut h inside =>
    -- Nothing stands behind a block that is cut off, so it is the last piece or parts two empty ones.
    have hle := Location.le_trans (Token.start_le_stop _) inside.le
    rw [splitOn]
    split
    · exact .cons (.nil h) hle (.cons (.nil inside.of_stop) (Location.le_refl _)
        (.nil (Location.le_refl _)))
    · exact .cons (.cut h inside) (Location.le_refl _) (.nil (Location.le_refl _))

/-- Behind the first component of a level stand the others. -/
theorem Component.Spans.tail {c : Component} {cs : List Component} (h : Spans P lo (c :: cs) hi) :
    ∃ mid, lo ≤ mid ∧ Spans P mid cs hi :=
  h.of_suffix (List.suffix_cons c cs)

theorem located_readChunk {cs : List Component} (h : Spans P lo cs hi) :
    Located P lo (readChunk cs) hi := by
  induction cs generalizing lo with
  | nil => exact located_pure _ h.le
  | cons c cs ih =>
    obtain ⟨mid, hle, hrest⟩ := h.tail
    have hstart := h.start_eq
    unfold readChunk
    split
    · exact (ih hrest).of_le hle
    · split
      · rw [hstart]
        exact (located_readComment _ _ (Location.le_refl _) h.of_start hle).bind fun _ =>
          (ih hrest).map _
      · split
        · exact located_pure _ h.le
        · rw [hstart]
          exact (located_report _ (Location.le_refl _) h.of_start h.le).bind_pure _

theorem located_readChunks {chunks : List (List Component)} (h : Rows P lo chunks hi) :
    Located P lo (readChunks chunks) hi := by
  induction h with
  | nil h => exact located_pure _ h
  | cons h hle _ ih =>
    exact (located_readChunk h).bind fun _ => (ih.of_le hle).map _

theorem located_readDeclarations {cs : List Component} (h : Spans P lo cs hi) :
    Located P lo (readDeclarations cs) hi :=
  located_readChunks (rows_splitOn _ h)

end

/-! ## Bodies -/

section

variable {P : Location → Prop} {base lo mid hi stop : Location} {cs : List Component}

/-- A body between two places. -/
inductive Body.Fits (P : Location → Prop) (lo : Location) : Body → Location → Prop
  | missing {place hi : Location} (hlo : lo ≤ place) (h : P place) (hhi : place ≤ hi) :
    Fits P lo (.missing place) hi
  | block {inner stop hi : Location} {contents : List Component} {closed : Bool} (hlo : lo ≤ inner)
    (inside : Spans P inner contents stop) (hhi : stop ≤ hi) : Fits P lo (.block contents stop closed) hi

/-- The body that is taken off a level stands in front of what is left. -/
theorem Body.fits_ofLevel (h : Spans P lo cs stop) (hle : base ≤ lo) :
    ∃ mid, Fits P base (ofLevel stop cs).1 mid ∧ Spans P mid (ofLevel stop cs).2 stop := by
  cases h with
  | nil h => exact ⟨_, .missing hle h (Location.le_refl _), .nil h⟩
  | leaf h rest => exact ⟨_, .missing hle h (Location.le_refl _), .leaf h rest⟩
  | @closed opener closer contents cs _ h inside rest =>
    by_cases hcurly : opener.kind = .opening .curly
    · rw [ofLevel, if_pos hcurly]
      exact ⟨_, .block (Location.le_trans hle (Token.start_le_stop _)) inside
        (Token.start_le_stop _), rest⟩
    · rw [ofLevel, if_neg hcurly]
      exact ⟨_, .missing hle h (Location.le_refl _), .closed h inside rest⟩
  | @cut opener contents _ h inside =>
    by_cases hcurly : opener.kind = .opening .curly
    · rw [ofLevel, if_pos hcurly]
      exact ⟨_, .block (Location.le_trans hle (Token.start_le_stop _)) inside (Location.le_refl _),
        .nil inside.of_stop⟩
    · rw [ofLevel, if_neg hcurly]
      exact ⟨_, .missing hle h (Location.le_refl _), .cut h inside⟩

/-- A body is read between its places if its inside is. -/
theorem Body.Fits.located_read {α : Type} {body : Body} (h : body.Fits P lo hi)
    (construct : Construct) {inside : Reading α}
    (hinside : ∀ inner, Spans P inner body.contents body.stop →
      Located P inner inside body.stop) : Located P lo (body.read construct inside) hi := by
  cases h with
  | missing hlo h hhi =>
    exact (located_report _ hlo h hhi).bind_pure _
  | @block inner stop _ contents closed hlo hspans hhi =>
    rw [read_block]
    refine ((hinside inner hspans).of_le hlo).bind fun a => ?_
    cases closed with
    | true => exact located_pure _ hhi
    | false =>
      exact (located_report _ (Location.le_refl _) hspans.of_stop hhi).bind_pure _

/-! ## Levels with a refused block in front -/

/-- What is left of a level, to be read from `base` on.  Behind a refused block that is the place where
the inside of the block starts. -/
structure Stands (P : Location → Prop) (base : Location) (skipped : Option Skipped)
    (cs : List Component) (stop : Location) : Prop where
  exists_spans : ∃ lo, base ≤ lo ∧ Spans P lo cs stop
  of_base : P base
  startOf_eq : ∀ c ∈ cs.head?, Skipped.startOf skipped c = base

theorem stands_of_spans (h : Spans P lo cs stop) : Stands P lo none cs stop where
  exists_spans := ⟨lo, Location.le_refl _, h⟩
  of_base := h.of_start
  startOf_eq c hc := by
    cases h with
    | nil => cases hc
    | leaf | closed | cut =>
      obtain rfl := Option.some.inj hc
      rfl

theorem Stands.le {skipped : Option Skipped} (h : Stands P base skipped cs stop) : base ≤ stop := by
  obtain ⟨lo, hle, hspans⟩ := h.exists_spans
  exact Location.le_trans hle hspans.le

/-- What stands behind the first components of a level. -/
theorem Stands.of_suffix {skipped : Option Skipped} {ds : List Component}
    (h : Stands P base skipped cs stop) (hsuffix : ds <:+ cs) :
    ∃ mid, base ≤ mid ∧ Spans P mid ds stop := by
  obtain ⟨lo, hle, hspans⟩ := h.exists_spans
  obtain ⟨mid, hle', hrest⟩ := hspans.of_suffix hsuffix
  exact ⟨mid, Location.le_trans hle hle', hrest⟩

/-- A refused block is passed over from its inside on. -/
theorem Skipped.stands_ofLevel (h : Spans P lo cs stop) :
    ∃ mid, lo ≤ mid ∧ Stands P mid (ofLevel cs).1 (ofLevel cs).2 stop := by
  cases h with
  | nil h => exact ⟨_, Location.le_refl _, stands_of_spans (.nil h)⟩
  | leaf h rest => exact ⟨_, Location.le_refl _, stands_of_spans (.leaf h rest)⟩
  | @closed opener closer contents cs _ h inside rest =>
    by_cases hcurly : opener.kind = .opening .curly
    · rw [ofLevel, if_pos hcurly]
      exact ⟨opener.stop, Token.start_le_stop _,
        ⟨_, Location.le_trans inside.le (Token.start_le_stop _), rest⟩, inside.of_start, fun _ _ => rfl⟩
    · rw [ofLevel, if_neg hcurly]
      exact ⟨_, Location.le_refl _, stands_of_spans (.closed h inside rest)⟩
  | @cut opener contents _ h inside =>
    by_cases hcurly : opener.kind = .opening .curly
    · rw [ofLevel, if_pos hcurly]
      exact ⟨opener.stop, Token.start_le_stop _, ⟨_, inside.le, .nil inside.of_stop⟩,
        inside.of_start, fun _ _ => rfl⟩
    · rw [ofLevel, if_neg hcurly]
      exact ⟨_, Location.le_refl _, stands_of_spans (.cut h inside)⟩

/-! ## Keyframes -/

theorem located_readFrame (moments : List String) {body : Body} (h : body.Fits P lo hi) :
    Located P lo (readFrame moments body) hi :=
  (h.located_read _ fun _ hspans => located_readDeclarations hspans).bind_pure _

theorem located_readFrames {skipped : Option Skipped} (h : Stands P base skipped cs stop) :
    Located P base (readFrames stop skipped cs) stop := by
  fun_induction readFrames stop skipped cs generalizing base
  case case1 => exact located_pure _ h.le
  case case2 skipped c cs hgap ih =>
    obtain ⟨mid, hle, hrest⟩ := h.of_suffix (List.suffix_cons c cs)
    exact (ih (stands_of_spans hrest)).of_le hle
  case case3 skipped c cs hgap hcomment ih =>
    obtain ⟨mid, hle, hrest⟩ := h.of_suffix (List.suffix_cons c cs)
    rw [h.startOf_eq c rfl]
    exact (located_readComment _ _ (Location.le_refl _) h.of_base hle).bind fun _ =>
      (ih (stands_of_spans hrest)).map _
  case case4 c cs hgap hcomment moments hrefused ih =>
    obtain ⟨front, hle, hblock⟩ := h.of_suffix (List.dropWhile_suffix (!·.isCurly))
    obtain ⟨mid, hle', hrest⟩ := Skipped.stands_ofLevel hblock
    rw [h.startOf_eq c rfl]
    exact (located_report _ (Location.le_refl _) h.of_base (Location.le_trans hle hle')).bind fun _ =>
      ih hrest
  case case5 skipped c cs hgap hcomment moments hrefused next ih =>
    obtain ⟨front, hle, hblock⟩ := h.of_suffix (List.dropWhile_suffix (!·.isCurly))
    obtain ⟨mid, hbody, hrest⟩ := Body.fits_ofLevel hblock hle
    exact (located_readFrame moments hbody).bind fun _ => (ih (stands_of_spans hrest)).map _

/-! ## Statements -/

namespace Statement

/-- A statement between two places: a flat one is read there, and a group has its body there. -/
def Fits (P : Location → Prop) (lo : Location) (statement : Statement) (hi : Location) : Prop :=
  match statement with
  | .flat statement => Located P lo statement.read hi
  | .group _ body => body.Fits P lo hi

/-- A statement that was cut off a level, with what is left behind it. -/
def Cut.Fits (P : Location → Prop) (base : Location) (cut : Cut) (stop : Location) : Prop :=
  ∃ mid, cut.statement.Fits P base mid ∧ Stands P mid cut.skipped cut.rest stop

/-- A declaration block, or one of keyframes, is read between its places. -/
theorem located_read_declarations {α : Type} (construct : Construct) {body : Body}
    (h : body.Fits P lo hi) (f : Option (List DeclarationEntry) → α) :
    Located P lo (body.read construct (readDeclarations body.contents) >>= fun ds => pure (f ds)) hi :=
  (h.located_read _ fun _ hspans => located_readDeclarations hspans).bind_pure _

/-- A statement that is refused: its problem stands at `place`, in front of the block that is passed
over. -/
theorem fits_refused (cause : Problem.Cause) {place : Location} (hlo : base ≤ place) (hP : P place)
    (h : Spans P lo cs stop) (hle : place ≤ lo) :
    Cut.Fits P base ⟨.flat (.refused cause place), (Skipped.ofLevel cs).1, (Skipped.ofLevel cs).2⟩
      stop := by
  obtain ⟨mid, hmid, hrest⟩ := Skipped.stands_ofLevel h
  refine ⟨mid, ?_, hrest⟩
  exact (located_report _ hlo hP (Location.le_trans hle hmid)).bind_pure _

/-- A statement with a body: it fits if it does so with every body between two places. -/
theorem fits_body {f : Body → Statement} (hf : ∀ body hi, body.Fits P base hi → (f body).Fits P base hi)
    (h : Spans P lo cs stop) (hle : base ≤ lo) :
    Cut.Fits P base ⟨f (Body.ofLevel stop cs).1, none, (Body.ofLevel stop cs).2⟩ stop := by
  obtain ⟨mid, hbody, hrest⟩ := Body.fits_ofLevel h hle
  exact ⟨mid, hf _ _ hbody, stands_of_spans hrest⟩

variable {skipped : Option Skipped} {c : Component}

theorem fits_cutStyle (h : Stands P base skipped (c :: cs) stop) :
    (cutStyle stop skipped c cs).Fits P base stop := by
  obtain ⟨front, hle, hblock⟩ := h.of_suffix (List.dropWhile_suffix (!·.isCurly))
  unfold cutStyle
  dsimp only
  split
  · rw [h.startOf_eq c rfl]
    exact fits_refused _ (Location.le_refl _) h.of_base hblock hle
  · exact fits_body (f := fun body => .flat (.style _ body))
      (fun _ _ hbody => located_read_declarations _ hbody _) hblock hle

/-- At-rules have their bodies behind the keyword. -/
theorem fits_cutForm {place : Location} {keyword : Token} {form : AtRule.Form}
    (hform : AtRule.form? keyword cs = some form) (hle : base ≤ place) (h : Spans P place cs stop) :
    (cutForm stop place cs form).Fits P base stop := by
  obtain ⟨front, hfront, hend⟩ := h.of_suffix
    (List.dropWhile_suffix fun c => !(c.isCurly || c.isSemicolon))
  have hbase := Location.le_trans hle hfront
  cases form with
  | group head => exact fits_body (f := .group _) (fun _ _ hbody => hbody) hend hbase
  | keyframes vendor =>
    dsimp only [cutForm, cutKeyframes]
    split
    · exact fits_refused _ hle h.of_start hend hfront
    · refine fits_body (f := fun body => .flat (.keyframes _ vendor body)) ?_ hend hbase
      intro body hi hbody
      have hread := hbody.located_read .keyframes fun _ hspans =>
        located_readFrames (stands_of_spans hspans)
      exact hread.bind_pure _
  | page =>
    obtain ⟨front, hfront, hblock⟩ := h.of_suffix (List.dropWhile_suffix (!·.isCurly))
    exact fits_body (f := fun body => .flat (.page _ body))
      (fun _ _ hbody => located_read_declarations _ hbody _) hblock (Location.le_trans hle hfront)
  | fontFace =>
    exact fits_body (f := fun body => .flat (.fontFace body))
      (fun _ _ hbody => located_read_declarations _ hbody _) hend hbase
  | whole rule rest =>
    obtain ⟨text, hstatement⟩ := AtRule.exists_statement?_of_form? hform
    obtain ⟨mid, hmid, hrest⟩ := h.of_suffix (AtRule.statement?_suffix hstatement)
    exact ⟨mid, located_pure _ (Location.le_trans hle hmid), stands_of_spans hrest⟩

/-- What is cut off a level stands between the place where it is read from and what is left. -/
theorem fits_cut (h : Stands P base skipped (c :: cs) stop) :
    (cut stop skipped c cs).Fits P base stop := by
  obtain ⟨mid, hle, hrest⟩ := h.of_suffix (List.suffix_cons c cs)
  have hgap : Cut.Fits P base ⟨.flat .gap, none, cs⟩ stop :=
    ⟨mid, located_pure _ hle, stands_of_spans hrest⟩
  cases c with
  | block opener contents closer => exact fits_cutStyle h
  | leaf t =>
    unfold cut
    dsimp only
    split
    case h_5 =>
      rw [h.startOf_eq _ rfl]
      refine ⟨mid, ?_, stands_of_spans hrest⟩
      exact (located_readComment _ _ (Location.le_refl _) h.of_base hle).bind_pure _
    case h_6 =>
      refine ⟨mid, ?_, stands_of_spans hrest⟩
      exact (located_note _ hle).bind_pure _
    case h_7 =>
      rw [cutAtRule_eq]
      cases hform : AtRule.form? t cs with
      | none => exact fits_cutStyle h
      | some form =>
        obtain ⟨lo, hlo, hspans⟩ := h.exists_spans
        cases hspans with
        | leaf _ hspans =>
          exact fits_cutForm hform (Location.le_trans hlo (Token.start_le_stop _)) hspans
    case h_8 => exact fits_cutStyle h
    all_goals exact hgap

end Statement

/-- The problems of a level ascend from where it is read to its end. -/
theorem located_readRules {skipped : Option Skipped} (h : Stands P base skipped cs stop) :
    Located P base (readRules stop skipped cs) stop := by
  fun_induction readRules stop skipped cs generalizing base with
  | case1 => exact located_pure _ h.le
  | case2 stop skipped c cs statement next rest hcut ih =>
    obtain ⟨mid, hstatement, hrest⟩ := Statement.fits_cut h
    rw [hcut] at hstatement hrest
    exact Located.bind hstatement fun _ => (ih hrest).map _
  | case3 stop skipped c cs head body next rest hcut ihInner ih =>
    obtain ⟨mid, hbody, hrest⟩ := Statement.fits_cut h
    rw [hcut] at hbody hrest
    have hinner := Body.Fits.located_read hbody head.construct fun inner hspans =>
      ihInner (stands_of_spans hspans)
    exact hinner.bind fun _ => (ih hrest).map _

end

/-! ## Style sheets -/

namespace Stylesheet

/-- The problems of a text ascend through it. -/
theorem located_read (css : String) :
    Located (·.IsIn css.toList) Location.start (read css) (Location.start.advance css.toList) :=
  located_readRules (stands_of_spans (spans_ofText css.toList))

/-- **Problems are noted in the order of the text, and each of them is somewhere in it.**  The silent
reader has a style sheet to give for every text, the places of its problems never go back, and each is on
a line of the text and no further right than just behind the end of that line.  Problems carry the name of
the text.  The one problem of a strict reader is in the text as well. -/
theorem problems_ascend (css : String) (source : Option String) :
    (∃ sheet, parse css ⟨source, true⟩ = .ok sheet ∧
      (sheet.problems.Pairwise fun p q => p.location ≤ q.location) ∧
      ∀ p ∈ sheet.problems, p.location.IsIn css.toList ∧ p.source = source) ∧
    ∀ p, parse css ⟨source, false⟩ = .error p → p.location.IsIn css.toList ∧ p.source = source := by
  obtain ⟨notes, rules, hrun, hascends⟩ := located_read css source
  have hsilent : parse css ⟨source, true⟩ = .ok ⟨rules, notes.filterMap Notice.problem?⟩ := by
    rw [parse, hrun]
  have hall : ∀ p ∈ notes.filterMap Notice.problem?,
      p.location.IsIn css.toList ∧ p.source = source :=
    fun p hp => (hascends.forall_mem p hp).2
  refine ⟨⟨_, hsilent, hascends.pairwise, hall⟩, fun p hp => ?_⟩
  obtain ⟨sheet, hsheet, hstrict⟩ := parse_strict css source
  obtain rfl := Except.ok.inj (hsilent.symm.trans hsheet)
  rw [hp] at hstrict
  split at hstrict
  · cases hstrict
  · next q qs hproblems =>
    obtain rfl := Except.error.inj hstrict
    exact hall p (List.mem_of_mem_head? (congrArg List.head? hproblems))

-- A pair of carriage return and line feed ends one line, and the character in the comment takes two
-- columns.
example : (parse "a\x7b\r\n/*😀*/b;\x0cc" ⟨none, true⟩).toOption.map
    (·.problems.map fun p => (p.location.line, p.location.column)) = some [(2, 7), (3, 1), (3, 2)] := by
  cbv

end Stylesheet

end Restyle.Css
