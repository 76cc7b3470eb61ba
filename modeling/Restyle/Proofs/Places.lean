import Restyle.Proofs.Levels

/-!
# Places do not matter

Tokens carry the place where they start, and problems carry the place where they were found.  No
reader looks at a place: two levels that are the same once their places are forgotten have the same
rules, and their problems differ in nothing but their places (`unplaced_readRules`).

`unplaced` forgets the places of tokens, components, bodies, statements and problems.  Each function
that cuts or reads components is shown to give the same up to places on arguments that are the
same up to places; the readers follow by induction on the number of tokens.
-/

namespace Restyle.Css

/-! ## Tokens and components -/

/-- A token with its place forgotten. -/
def Token.unplaced (t : Token) : Token := { t with start := .start }

@[simp] theorem Token.kind_unplaced (t : Token) : t.unplaced.kind = t.kind := rfl

@[simp] theorem Token.text_unplaced (t : Token) : t.unplaced.text = t.text := rfl

/-- The tokens of a text are the same wherever it stands, up to places. -/
theorem Token.unplaced_lex (loc loc' : Location) (cs : List Char) :
    (lex loc cs).map unplaced = (lex loc' cs).map unplaced := by
  fun_induction lex loc cs generalizing loc' with
  | case1 => rw [lex]
  | case2 loc c cs kind n h text ih =>
    rw [lex, h]
    dsimp only
    rw [List.map_cons, List.map_cons, ih (loc'.advance text)]
    rfl

namespace Component

mutual

def unplaced : Component → Component
  | .leaf t => .leaf t.unplaced
  | .block opener contents closer =>
    .block opener.unplaced (unplacedAll contents) (closer.map Token.unplaced)

def unplacedAll : List Component → List Component
  | [] => []
  | c :: cs => c.unplaced :: unplacedAll cs

end

theorem unplacedAll_eq_map (cs : List Component) : unplacedAll cs = cs.map unplaced := by
  induction cs with
  | nil => rfl
  | cons c cs ih => rw [unplacedAll, ih, List.map_cons]

mutual

@[simp] theorem unplaced_unplaced (c : Component) : c.unplaced.unplaced = c.unplaced := by
  cases c with
  | leaf t => rfl
  | block opener contents closer =>
    rw [unplaced, unplaced, unplacedAll_unplacedAll contents]
    cases closer <;> rfl

theorem unplacedAll_unplacedAll (cs : List Component) :
    unplacedAll (unplacedAll cs) = unplacedAll cs := by
  cases cs with
  | nil => rfl
  | cons c cs => rw [unplacedAll, unplacedAll, unplaced_unplaced c, unplacedAll_unplacedAll cs]

end

mutual

theorem tokens_unplaced (c : Component) : c.unplaced.tokens = c.tokens.map Token.unplaced := by
  cases c with
  | leaf t => rfl
  | block opener contents closer =>
    simp only [unplaced, tokens, tokensOf_unplacedAll contents]
    cases closer <;> simp

theorem tokensOf_unplacedAll (cs : List Component) :
    tokensOf (unplacedAll cs) = (tokensOf cs).map Token.unplaced := by
  cases cs with
  | nil => rfl
  | cons c cs => simp [unplacedAll, tokens_unplaced c, tokensOf_unplacedAll cs]

end

@[simp] theorem text_unplaced (c : Component) : c.unplaced.text = c.text := by
  simp [text, tokens_unplaced, List.flatMap_map]

@[simp] theorem flatMap_text_unplaced (cs : List Component) :
    (cs.map unplaced).flatMap text = cs.flatMap text := by
  simp [List.flatMap_map]

@[simp] theorem isLeaf_unplaced (kind : Token.Kind) (c : Component) :
    c.unplaced.isLeaf kind = c.isLeaf kind := by
  cases c <;> rfl

@[simp] theorem isBlock_unplaced (bracket : Bracket) (c : Component) :
    c.unplaced.isBlock bracket = c.isBlock bracket := by
  cases c <;> rfl

@[simp] theorem isWhiteSpace_unplaced (c : Component) :
    c.unplaced.isWhiteSpace = c.isWhiteSpace := isLeaf_unplaced _ c

@[simp] theorem isComment_unplaced (c : Component) : c.unplaced.isComment = c.isComment :=
  isLeaf_unplaced _ c

@[simp] theorem isSemicolon_unplaced (c : Component) :
    c.unplaced.isSemicolon = c.isSemicolon := isLeaf_unplaced _ c

@[simp] theorem isComma_unplaced (c : Component) : c.unplaced.isComma = c.isComma :=
  isLeaf_unplaced _ c

@[simp] theorem isCurly_unplaced (c : Component) : c.unplaced.isCurly = c.isCurly :=
  isBlock_unplaced _ c

/-! ## Nesting -/

def Nesting.unplaced (n : Nesting) : Nesting :=
  ⟨n.level.map Component.unplaced,
    n.pending.map fun p => ⟨p.opener.unplaced, p.before.map Component.unplaced⟩⟩

theorem Nesting.unplaced_push (n : Nesting) (t : Token) :
    (n.push t).unplaced = n.unplaced.push t.unplaced := by
  unfold Nesting.push
  rw [Token.kind_unplaced]
  split
  · rfl
  · rcases n with ⟨level, _ | ⟨p, ps⟩⟩
    · rfl
    · simp only [unplaced, List.map_cons, Token.kind_unplaced]
      split
      · simp [Component.unplaced, unplacedAll_eq_map]
      · rfl

theorem Nesting.unplaced_finish (level : List Component) (ps : List Pending) :
    (finish level ps).map Component.unplaced =
      finish (unplaced ⟨level, ps⟩).level (unplaced ⟨level, ps⟩).pending := by
  induction ps generalizing level with
  | nil => simp [finish, unplaced]
  | cons p ps ih => simp [finish, ih, unplaced, Component.unplaced, unplacedAll_eq_map]

theorem unplaced_ofTokens (ts : List Token) :
    (ofTokens ts).map unplaced = ofTokens (ts.map Token.unplaced) := by
  have key : ∀ n : Nesting, (ts.foldl Nesting.push n).unplaced =
      (ts.map Token.unplaced).foldl Nesting.push n.unplaced := by
    induction ts with
    | nil => intro n; rfl
    | cons t ts ih => intro n; rw [List.foldl_cons, ih, Nesting.unplaced_push]; rfl
  have start := key {}
  rw [ofTokens, Nesting.unplaced_finish]
  simp only [start]
  rfl

/-- The components of a text are the same wherever it stands, up to places. -/
theorem unplaced_ofText (loc loc' : Location) (text : List Char) :
    (ofText loc text).map unplaced = (ofText loc' text).map unplaced := by
  rw [ofText, ofText, unplaced_ofTokens, unplaced_ofTokens, Token.unplaced_lex loc loc']

/-! ## Preludes -/

@[simp] theorem plainText_unplaced (cs : List Component) :
    plainText (cs.map unplaced) = plainText cs := by
  simp [plainText, List.filter_map, Function.comp_def, List.flatMap_map]

@[simp] theorem trimmedText_unplaced (cs : List Component) :
    trimmedText (cs.map unplaced) = trimmedText cs := by
  simp [trimmedText]

theorem splitOn_unplaced {p : Component → Bool} (hp : ∀ c, p c.unplaced = p c)
    (cs : List Component) :
    splitOn p (cs.map unplaced) = (splitOn p cs).map (List.map unplaced) := by
  induction cs with
  | nil => rfl
  | cons c cs ih =>
    simp only [List.map_cons, splitOn, hp, ih]
    cases p c with
    | true => rfl
    | false => cases splitOn p cs <;> rfl

@[simp] theorem untilCurly_unplaced (cs : List Component) :
    untilCurly (cs.map unplaced) = (untilCurly cs).map unplaced := by
  simp [untilCurly, List.takeWhile_map, Function.comp_def]

@[simp] theorem fromCurly_unplaced (cs : List Component) :
    fromCurly (cs.map unplaced) = (fromCurly cs).map unplaced := by
  simp [fromCurly, List.dropWhile_map, Function.comp_def]

@[simp] theorem untilEnd_unplaced (cs : List Component) :
    untilEnd (cs.map unplaced) = (untilEnd cs).map unplaced := by
  simp [untilEnd, List.takeWhile_map, Function.comp_def]

@[simp] theorem fromEnd_unplaced (cs : List Component) :
    fromEnd (cs.map unplaced) = (fromEnd cs).map unplaced := by
  simp [fromEnd, List.dropWhile_map, Function.comp_def]

end Component

open Component

namespace Skipped

def unplaced (s : Skipped) : Skipped := { s with start := .start }

theorem textOf_unplaced (skipped : Option Skipped) (c : Component) :
    textOf (skipped.map unplaced) c.unplaced = textOf skipped c := by
  cases skipped <;> simp [textOf, unplaced]

theorem ofLevel_unplaced (cs : List Component) :
    (ofLevel (cs.map Component.unplaced)).1.map unplaced = (ofLevel cs).1.map unplaced ∧
      (ofLevel (cs.map Component.unplaced)).2 = (ofLevel cs).2.map Component.unplaced := by
  rcases cs with _ | ⟨_ | ⟨opener, contents, closer⟩, cs⟩
  · exact ⟨rfl, rfl⟩
  · exact ⟨rfl, rfl⟩
  · by_cases h : opener.kind = .opening .curly
    · cases closer <;> simp [ofLevel, Component.unplaced, h, unplaced, unplacedAll_eq_map]
    · simp [ofLevel, Component.unplaced, h]

end Skipped

theorem selectorsOf_unplaced (skipped : Option Skipped) (cs : List Component) :
    selectorsOf (skipped.map Skipped.unplaced) (cs.map unplaced) = selectorsOf skipped cs := by
  unfold selectorsOf
  rw [splitOn_unplaced isComma_unplaced]
  cases skipped with
  | none => cases splitOn isComma cs <;> simp
  | some s =>
    cases cs with
    | nil => simp [splitOn]
    | cons c cs => cases splitOn isComma (c :: cs) <;> simp [Skipped.unplaced]

/-! ## At-rules and bodies -/

theorem AtRule.afterEnd?_unplaced (cs : List Component) :
    AtRule.afterEnd? (cs.map unplaced) = (AtRule.afterEnd? cs).map (List.map unplaced) := by
  cases cs with
  | nil => rfl
  | cons c cs => cases h : c.isSemicolon <;> simp [AtRule.afterEnd?, h]

theorem AtRule.statement?_unplaced (cs : List Component) :
    AtRule.statement? (cs.map unplaced) =
      (AtRule.statement? cs).map fun p => (p.1, p.2.map unplaced) := by
  simp only [AtRule.statement?, untilEnd_unplaced, trimmedText_unplaced, fromEnd_unplaced,
    AtRule.afterEnd?_unplaced]
  split
  · rfl
  · cases AtRule.afterEnd? (fromEnd cs) <;> rfl

theorem AtRule.form?_unplaced (keyword : Token) (cs : List Component) :
    form? keyword.unplaced (cs.map unplaced) =
      (form? keyword cs).map (Form.mapRest (List.map unplaced)) :=
  form?_of_statement? (statement?_unplaced cs)

namespace Body

def unplaced : Body → Body
  | .missing _ => .missing .start
  | .block contents _ closed => .block (contents.map Component.unplaced) .start closed

@[simp] theorem contents_unplaced (body : Body) :
    body.unplaced.contents = body.contents.map Component.unplaced := by
  cases body <;> rfl

theorem ofLevel_unplaced (stop stop' : Location) (cs : List Component) :
    (ofLevel stop' (cs.map Component.unplaced)).1.unplaced = (ofLevel stop cs).1.unplaced ∧
      (ofLevel stop' (cs.map Component.unplaced)).2 = (ofLevel stop cs).2.map Component.unplaced := by
  rcases cs with _ | ⟨_ | ⟨opener, contents, closer⟩, cs⟩
  · exact ⟨rfl, rfl⟩
  · exact ⟨rfl, rfl⟩
  · by_cases h : opener.kind = .opening .curly
    · cases closer <;> simp [ofLevel, Component.unplaced, h, unplaced, unplacedAll_eq_map]
    · simp [ofLevel, Component.unplaced, h, unplaced]

end Body

/-! ## Statements -/

namespace Statement

/-- A statement that holds no others with its places forgotten. -/
def Flat.unplaced : Flat → Flat
  | .gap => .gap
  | .comment body text _ => .comment body text .start
  | .strayBracket _ => .strayBracket .start
  | .refused cause _ => .refused cause .start
  | .style selectors body => .style selectors body.unplaced
  | .keyframes name vendor body => .keyframes name vendor body.unplaced
  | .fontFace body => .fontFace body.unplaced
  | .page selectors body => .page selectors body.unplaced
  | .whole rule => .whole rule

def unplaced : Statement → Statement
  | .group head body => .group head body.unplaced
  | .flat statement => .flat statement.unplaced

/-- What has been cut off and what is left, with all places forgotten. -/
def Cut.unplaced (cut : Cut) : Cut :=
  ⟨cut.statement.unplaced, cut.skipped.map Skipped.unplaced, cut.rest.map Component.unplaced⟩

section

variable (stop stop' : Location) (skipped : Option Skipped) (c : Component) (cs : List Component)

theorem cutStyle_unplaced :
    (cutStyle stop' (skipped.map Skipped.unplaced) c.unplaced (cs.map Component.unplaced)).unplaced =
      (cutStyle stop skipped c cs).unplaced := by
  have hskip := Skipped.ofLevel_unplaced (fromCurly (c :: cs))
  have hbody := Body.ofLevel_unplaced stop stop' (fromCurly (c :: cs))
  unfold cutStyle
  dsimp only
  rw [← List.map_cons, untilCurly_unplaced, fromCurly_unplaced, selectorsOf_unplaced,
    isCurly_unplaced]
  split
  · simp [Cut.unplaced, Statement.unplaced, Flat.unplaced, hskip.1, hskip.2]
  · simp [Cut.unplaced, Statement.unplaced, Flat.unplaced, hbody.1, hbody.2]

theorem cutGroup_unplaced (head : String → Group) :
    (cutGroup stop' head (cs.map Component.unplaced)).unplaced =
      (cutGroup stop head cs).unplaced := by
  have hbody := Body.ofLevel_unplaced stop stop' (fromEnd cs)
  simp [cutGroup, Cut.unplaced, Statement.unplaced, hbody.1, hbody.2]

theorem cutKeyframes_unplaced (vendor : Option String) (place place' : Location) :
    (cutKeyframes stop' vendor place' (cs.map Component.unplaced)).unplaced =
      (cutKeyframes stop vendor place cs).unplaced := by
  have hskip := Skipped.ofLevel_unplaced (fromEnd cs)
  have hbody := Body.ofLevel_unplaced stop stop' (fromEnd cs)
  unfold cutKeyframes
  dsimp only
  rw [untilEnd_unplaced, fromEnd_unplaced, trimmedText_unplaced]
  split
  · simp [Cut.unplaced, Statement.unplaced, Flat.unplaced, hskip.1, hskip.2]
  · simp [Cut.unplaced, Statement.unplaced, Flat.unplaced, hbody.1, hbody.2]

theorem cutAtRule_unplaced (keyword : Token) :
    (cutAtRule stop' (skipped.map Skipped.unplaced) keyword.unplaced c.unplaced
        (cs.map Component.unplaced)).unplaced =
      (cutAtRule stop skipped keyword c cs).unplaced := by
  rw [cutAtRule_eq, cutAtRule_eq, AtRule.form?_unplaced]
  cases AtRule.form? keyword cs with
  | none => exact cutStyle_unplaced stop stop' skipped c cs
  | some form =>
    cases form with
    | group head => exact cutGroup_unplaced _ _ _ _
    | keyframes vendor => exact cutKeyframes_unplaced _ _ _ _ _ _
    | page =>
      have same := selectorsOf_unplaced none (untilCurly cs)
      have hbody := Body.ofLevel_unplaced stop stop' (fromCurly cs)
      rw [Option.map_none] at same
      simp [AtRule.Form.mapRest, cutForm, Cut.unplaced, Statement.unplaced, Flat.unplaced, same,
        hbody.1, hbody.2]
    | fontFace =>
      have hbody := Body.ofLevel_unplaced stop stop' (fromEnd cs)
      simp [AtRule.Form.mapRest, cutForm, Cut.unplaced, Statement.unplaced, Flat.unplaced, hbody.1,
        hbody.2]
    | whole rule rest =>
      simp [AtRule.Form.mapRest, cutForm, Cut.unplaced, Statement.unplaced]

/-- The first statement of a level does not hang on places. -/
theorem cut_unplaced :
    (cut stop' (skipped.map Skipped.unplaced) c.unplaced (cs.map Component.unplaced)).unplaced =
      (cut stop skipped c cs).unplaced := by
  have style := cutStyle_unplaced stop stop' skipped c cs
  cases c with
  | block opener contents closer => exact style
  | leaf t =>
    have text := Skipped.textOf_unplaced skipped (.leaf t)
    have atRule := cutAtRule_unplaced stop stop' skipped (.leaf t) cs t
    simp only [Component.unplaced] at style text atRule ⊢
    unfold cut
    dsimp only
    rw [Token.kind_unplaced, text]
    split
    case h_7 => exact atRule
    case h_8 => exact style
    all_goals simp [Cut.unplaced, Statement.unplaced, Flat.unplaced]

end

/-- Two levels that are the same up to places have the same first statement up to places. -/
theorem cut_congr (stop stop' : Location) {skipped skipped' : Option Skipped} {c c' : Component}
    {cs cs' : List Component} (hs : skipped.map Skipped.unplaced = skipped'.map Skipped.unplaced)
    (hc : c.unplaced = c'.unplaced) (hcs : cs.map Component.unplaced = cs'.map Component.unplaced) :
    (cut stop skipped c cs).unplaced = (cut stop' skipped' c' cs').unplaced := by
  rw [← cut_unplaced stop .start skipped c cs, ← cut_unplaced stop' .start skipped' c' cs', hs, hc,
    hcs]

end Statement

/-! ## Readers -/

def Problem.unplaced (p : Problem) : Problem := { p with location := .start }

def Notice.unplaced : Notice → Notice
  | .problem p => .problem p.unplaced
  | .strayBracket _ => .strayBracket 0

namespace Reading

variable {α β : Type}

/-- A computation that forgets the places in its notes and in the problem that stops it. -/
def unplaced (m : Reading α) : Reading α := fun o =>
  ((m o).1.map Notice.unplaced, (m o).2.mapError Problem.unplaced)

theorem unplaced_bind (m : Reading α) (f : α → Reading β) :
    (m >>= f).unplaced = m.unplaced >>= fun a => (f a).unplaced := by
  funext o
  rw [bind_run, unplaced, unplaced, bind_run]
  rcases m o with ⟨notes, p | a⟩ <;> simp [unplaced, Except.mapError]

theorem unplaced_map (f : α → β) (m : Reading α) : (f <$> m).unplaced = f <$> m.unplaced := by
  funext o
  rw [map_run, unplaced, unplaced, map_run]
  rcases m o with ⟨notes, p | a⟩ <;> rfl

theorem unplaced_note (line line' : Nat) :
    (note (.strayBracket line)).unplaced = (note (.strayBracket line')).unplaced := rfl

theorem unplaced_report (cause : Problem.Cause) (place place' : Location) :
    (report cause place).unplaced = (report cause place').unplaced := by
  funext o
  cases h : o.silent <;>
    simp [unplaced, report, h, Except.mapError, Problem.unplaced, Notice.unplaced]

theorem unplaced_bind_congr {m m' : Reading α} {f f' : α → Reading β} (hm : m.unplaced = m'.unplaced)
    (hf : ∀ a, (f a).unplaced = (f' a).unplaced) : (m >>= f).unplaced = (m' >>= f').unplaced := by
  rw [unplaced_bind, unplaced_bind, hm]
  simp only [hf]

theorem unplaced_map_congr (f : α → β) {m m' : Reading α} (hm : m.unplaced = m'.unplaced) :
    (f <$> m).unplaced = (f <$> m').unplaced := by
  rw [unplaced_map, unplaced_map, hm]

end Reading

open Reading

theorem unplaced_readComment (body text : List Char) (place place' : Location) :
    (readComment body text place).unplaced = (readComment body text place').unplaced := by
  unfold readComment
  split
  · rfl
  · exact unplaced_bind_congr (unplaced_report _ _ _) fun _ => rfl

theorem Declaration.ofComponents?_unplaced (cs : List Component) :
    Declaration.ofComponents? (cs.map Component.unplaced) = Declaration.ofComponents? cs := by
  have part : ∀ c : Component, isPropertyPart c.unplaced = isPropertyPart c := fun c => by
    cases c <;> rfl
  unfold Declaration.ofComponents?
  simp only [List.takeWhile_map, List.dropWhile_map, Function.comp_def, part, flatMap_text_unplaced]
  cases cs.dropWhile isPropertyPart <;> simp

theorem unplaced_readChunk (cs : List Component) :
    (readChunk cs).unplaced = (readChunk (cs.map Component.unplaced)).unplaced := by
  induction cs with
  | nil => rfl
  | cons c cs ih =>
    have same := Declaration.ofComponents?_unplaced (c :: cs)
    rw [List.map_cons] at same
    simp only [List.map_cons, readChunk, isWhiteSpace_unplaced, isComment_unplaced, text_unplaced,
      same]
    split
    · exact ih
    · split
      · exact unplaced_bind_congr (unplaced_readComment _ _ _ _) fun _ => unplaced_map_congr _ ih
      · split
        · rfl
        · exact unplaced_bind_congr (unplaced_report _ _ _) fun _ => rfl

theorem unplaced_readChunks (chunks : List (List Component)) :
    (readChunks chunks).unplaced =
      (readChunks (chunks.map (List.map Component.unplaced))).unplaced := by
  induction chunks with
  | nil => rfl
  | cons chunk chunks ih =>
    exact unplaced_bind_congr (unplaced_readChunk chunk) fun _ => unplaced_map_congr _ ih

theorem unplaced_readDeclarations (cs : List Component) :
    (readDeclarations cs).unplaced = (readDeclarations (cs.map Component.unplaced)).unplaced := by
  rw [readDeclarations, readDeclarations, splitOn_unplaced isSemicolon_unplaced]
  exact unplaced_readChunks _

/-- Declaration blocks that are the same up to places are read the same up to places. -/
theorem unplaced_readDeclarations_congr {cs cs' : List Component}
    (h : cs.map Component.unplaced = cs'.map Component.unplaced) :
    (readDeclarations cs).unplaced = (readDeclarations cs').unplaced := by
  rw [unplaced_readDeclarations cs, unplaced_readDeclarations cs', h]

theorem Body.unplaced_read_congr {α : Type} (construct : Construct) {body body' : Body}
    {inside inside' : Reading α} (h : body.unplaced = body'.unplaced)
    (hinside : inside.unplaced = inside'.unplaced) :
    (body.read construct inside).unplaced = (body'.read construct inside').unplaced := by
  cases body with
  | missing place =>
    cases body' with
    | missing place' => exact unplaced_bind_congr (unplaced_report _ _ _) fun _ => rfl
    | block contents' stop' closed' => cases h
  | block contents stop closed =>
    cases body' with
    | missing place' => cases h
    | block contents' stop' closed' =>
      simp only [Body.unplaced, Body.block.injEq, true_and] at h
      obtain ⟨-, rfl⟩ := h
      rw [read_block, read_block]
      refine unplaced_bind_congr hinside fun a => ?_
      cases closed with
      | true => rfl
      | false => exact unplaced_bind_congr (unplaced_report _ _ _) fun _ => rfl

/-- Bodies that are the same up to places have contents that are. -/
theorem Body.contents_congr {body body' : Body} (h : body.unplaced = body'.unplaced) :
    body.contents.map Component.unplaced = body'.contents.map Component.unplaced := by
  rw [← contents_unplaced, ← contents_unplaced, h]

/-- A function that no place matters to gives the same for two components that are the same up to
places. -/
theorem Component.congr_of_unplaced {α : Type} {f : Component → α} (hf : ∀ c, f c.unplaced = f c)
    {c c' : Component} (h : c.unplaced = c'.unplaced) : f c = f c' := by
  rw [← hf c, h, hf c']

theorem Skipped.textOf_congr {skipped skipped' : Option Skipped} {c c' : Component}
    (hs : skipped.map Skipped.unplaced = skipped'.map Skipped.unplaced)
    (hc : c.unplaced = c'.unplaced) : textOf skipped c = textOf skipped' c' := by
  rw [← textOf_unplaced skipped c, hs, hc, textOf_unplaced skipped' c']

theorem selectorsOf_congr {skipped skipped' : Option Skipped} {cs cs' : List Component}
    (hs : skipped.map Skipped.unplaced = skipped'.map Skipped.unplaced)
    (hcs : cs.map Component.unplaced = cs'.map Component.unplaced) :
    selectorsOf skipped cs = selectorsOf skipped' cs' := by
  rw [← selectorsOf_unplaced skipped cs, hs, hcs, selectorsOf_unplaced skipped' cs']

theorem Component.untilCurly_congr {cs cs' : List Component}
    (h : cs.map Component.unplaced = cs'.map Component.unplaced) :
    (untilCurly cs).map Component.unplaced = (untilCurly cs').map Component.unplaced := by
  rw [← untilCurly_unplaced, h, untilCurly_unplaced]

theorem Component.fromCurly_congr {cs cs' : List Component}
    (h : cs.map Component.unplaced = cs'.map Component.unplaced) :
    (fromCurly cs).map Component.unplaced = (fromCurly cs').map Component.unplaced := by
  rw [← fromCurly_unplaced, h, fromCurly_unplaced]

theorem Skipped.ofLevel_congr {cs cs' : List Component}
    (h : cs.map Component.unplaced = cs'.map Component.unplaced) :
    (ofLevel cs).1.map unplaced = (ofLevel cs').1.map unplaced ∧
      (ofLevel cs).2.map Component.unplaced = (ofLevel cs').2.map Component.unplaced := by
  rw [← (ofLevel_unplaced cs).1, ← (ofLevel_unplaced cs).2, h, (ofLevel_unplaced cs').1,
    (ofLevel_unplaced cs').2]
  exact ⟨rfl, rfl⟩

theorem Body.ofLevel_congr (stop stop' : Location) {cs cs' : List Component}
    (h : cs.map Component.unplaced = cs'.map Component.unplaced) :
    (ofLevel stop cs).1.unplaced = (ofLevel stop' cs').1.unplaced ∧
      (ofLevel stop cs).2.map Component.unplaced = (ofLevel stop' cs').2.map Component.unplaced := by
  have left := ofLevel_unplaced stop .start cs
  have right := ofLevel_unplaced stop' .start cs'
  rw [← left.1, ← left.2, h, right.1, right.2]
  exact ⟨rfl, rfl⟩

theorem unplaced_readFrame (moments : List String) {body body' : Body}
    (h : body.unplaced = body'.unplaced) :
    (readFrame moments body).unplaced = (readFrame moments body').unplaced :=
  unplaced_bind_congr (Body.unplaced_read_congr _ h
    (unplaced_readDeclarations_congr (Body.contents_congr h))) fun _ => rfl

/-- Blocks of keyframes that are the same up to places are read the same up to places. -/
theorem unplaced_readFrames (stop stop' : Location) {skipped skipped' : Option Skipped}
    {cs cs' : List Component} (hs : skipped.map Skipped.unplaced = skipped'.map Skipped.unplaced)
    (hcs : cs.map Component.unplaced = cs'.map Component.unplaced) :
    (readFrames stop skipped cs).unplaced = (readFrames stop' skipped' cs').unplaced := by
  -- the cases below are those of `readFrames` on the first level; the second takes the same one
  fun_induction readFrames stop skipped cs generalizing skipped' cs' with
  | case1 skipped =>
    obtain rfl : cs' = [] := List.map_eq_nil_iff.1 hcs.symm
    rw [readFrames]
  | case2 skipped c cs hgap ih =>
    obtain ⟨c', cs', rfl, hc, hrest⟩ := List.map_eq_cons_iff.1 hcs.symm
    rw [congr_of_unplaced isWhiteSpace_unplaced hc.symm,
      congr_of_unplaced isSemicolon_unplaced hc.symm] at hgap
    rw [readFrames, if_pos hgap]
    exact ih rfl hrest.symm
  | case3 skipped c cs hgap hcomment ih =>
    obtain ⟨c', cs', rfl, hc, hrest⟩ := List.map_eq_cons_iff.1 hcs.symm
    rw [congr_of_unplaced isWhiteSpace_unplaced hc.symm,
      congr_of_unplaced isSemicolon_unplaced hc.symm] at hgap
    rw [congr_of_unplaced isComment_unplaced hc.symm] at hcomment
    rw [readFrames, if_neg hgap, if_pos hcomment, congr_of_unplaced text_unplaced hc.symm,
      Skipped.textOf_congr hs hc.symm]
    exact unplaced_bind_congr (unplaced_readComment _ _ _ _) fun _ =>
      unplaced_map_congr _ (ih rfl hrest.symm)
  | case4 skipped c cs hgap hcomment moments hnone =>
    rename_i ih
    obtain ⟨c', cs', rfl, hc, hrest⟩ := List.map_eq_cons_iff.1 hcs.symm
    have hmoments := selectorsOf_congr hs (untilCurly_congr hcs)
    have hnext := Skipped.ofLevel_congr (fromCurly_congr hcs)
    rw [congr_of_unplaced isWhiteSpace_unplaced hc.symm,
      congr_of_unplaced isSemicolon_unplaced hc.symm] at hgap
    rw [congr_of_unplaced isComment_unplaced hc.symm] at hcomment
    rw [congr_of_unplaced isCurly_unplaced hc.symm, show moments = _ from hmoments] at hnone
    rw [readFrames, if_neg hgap, if_neg hcomment, dif_pos hnone]
    exact unplaced_bind_congr (unplaced_report _ _ _) fun _ => ih hnext.1 hnext.2
  | case5 skipped c cs hgap hcomment moments hsome =>
    rename_i next ih
    obtain ⟨c', cs', rfl, hc, hrest⟩ := List.map_eq_cons_iff.1 hcs.symm
    have hmoments := selectorsOf_congr hs (untilCurly_congr hcs)
    have hnext := Body.ofLevel_congr stop stop' (fromCurly_congr hcs)
    rw [congr_of_unplaced isWhiteSpace_unplaced hc.symm,
      congr_of_unplaced isSemicolon_unplaced hc.symm] at hgap
    rw [congr_of_unplaced isComment_unplaced hc.symm] at hcomment
    rw [congr_of_unplaced isCurly_unplaced hc.symm, show moments = _ from hmoments] at hsome
    rw [readFrames, if_neg hgap, if_neg hcomment, dif_neg hsome, show moments = _ from hmoments]
    exact unplaced_bind_congr (unplaced_readFrame _ hnext.1) fun _ =>
      unplaced_map_congr _ (ih rfl hnext.2)

theorem Statement.Flat.unplaced_read_congr {statement statement' : Statement.Flat}
    (h : statement.unplaced = statement'.unplaced) :
    statement.read.unplaced = statement'.read.unplaced := by
  cases statement <;> cases statement' <;>
    simp only [Flat.unplaced, reduceCtorEq, Flat.comment.injEq, Flat.refused.injEq,
      Flat.style.injEq, Flat.keyframes.injEq, Flat.fontFace.injEq, Flat.page.injEq,
      Flat.whole.injEq, and_true] at h
  case gap.gap => rfl
  case comment.comment =>
    obtain ⟨rfl, rfl⟩ := h
    exact unplaced_bind_congr (unplaced_readComment _ _ _ _) fun _ => rfl
  case strayBracket.strayBracket =>
    exact unplaced_bind_congr (unplaced_note _ _) fun _ => rfl
  case refused.refused =>
    subst h
    exact unplaced_bind_congr (unplaced_report _ _ _) fun _ => rfl
  case style.style =>
    obtain ⟨rfl, hbody⟩ := h
    exact unplaced_bind_congr (Body.unplaced_read_congr _ hbody
      (unplaced_readDeclarations_congr (Body.contents_congr hbody))) fun _ => rfl
  case keyframes.keyframes =>
    obtain ⟨rfl, rfl, hbody⟩ := h
    exact unplaced_bind_congr (Body.unplaced_read_congr _ hbody
      (unplaced_readFrames _ _ rfl (Body.contents_congr hbody))) fun _ => rfl
  case fontFace.fontFace =>
    exact unplaced_bind_congr (Body.unplaced_read_congr _ h
      (unplaced_readDeclarations_congr (Body.contents_congr h))) fun _ => rfl
  case page.page =>
    obtain ⟨rfl, hbody⟩ := h
    exact unplaced_bind_congr (Body.unplaced_read_congr _ hbody
      (unplaced_readDeclarations_congr (Body.contents_congr hbody))) fun _ => rfl
  case whole.whole => subst h; rfl

/-- **Places do not matter to rules.**  Levels that are the same up to places have the same rules, and
problems that are the same up to places. -/
theorem unplaced_readRules (stop stop' : Location) {skipped skipped' : Option Skipped}
    {cs cs' : List Component} (hs : skipped.map Skipped.unplaced = skipped'.map Skipped.unplaced)
    (hcs : cs.map Component.unplaced = cs'.map Component.unplaced) :
    (readRules stop skipped cs).unplaced = (readRules stop' skipped' cs').unplaced := by
  induction hn : tokenCount cs using Nat.strong_induction_on
    generalizing stop stop' skipped skipped' cs cs' with
  | _ n ih =>
    subst hn
    cases cs with
    | nil =>
      obtain rfl : cs' = [] := List.map_eq_nil_iff.1 hcs.symm
      rw [readRules_nil, readRules_nil]
    | cons c cs =>
      obtain ⟨c', cs', rfl, hc, hrest⟩ := List.map_eq_cons_iff.1 hcs.symm
      have hcut := Statement.cut_congr stop stop' hs hc.symm hrest.symm
      have hless := Statement.tokenCount_cut stop skipped c cs
      obtain ⟨hstatement, hskipped, hleft⟩ := Statement.Cut.mk.inj hcut
      rw [readRules_cons, readRules_cons]
      refine unplaced_bind_congr ?_ fun _ =>
        unplaced_map_congr _ (ih _ (by omega) stop stop' hskipped hleft rfl)
      -- a group is read from its contents, which are smaller than the level
      generalize (Statement.cut stop skipped c cs).statement = statement at hstatement hless
      generalize (Statement.cut stop' skipped' c' cs').statement = statement' at hstatement
      cases statement with
      | flat flat =>
        cases statement' with
        | flat flat' =>
          exact Statement.Flat.unplaced_read_congr (Statement.flat.inj hstatement)
        | group head' body' => cases hstatement
      | group head body =>
        cases statement' with
        | flat flat' => cases hstatement
        | group head' body' =>
          obtain ⟨rfl, hbody⟩ := Statement.group.inj hstatement
          exact unplaced_bind_congr (Body.unplaced_read_congr _ hbody
            (ih _ (Nat.lt_of_le_of_lt (Nat.le_add_right _ _) hless) _ _ rfl
              (Body.contents_congr hbody) rfl)) fun _ => rfl

/-- A block that is left to be passed over is the same up to places. -/
theorem unplaced_skippedBehind (stop stop' : Location) {skipped skipped' : Option Skipped}
    {cs cs' : List Component} (hs : skipped.map Skipped.unplaced = skipped'.map Skipped.unplaced)
    (hcs : cs.map Component.unplaced = cs'.map Component.unplaced) :
    (skippedBehind stop skipped cs).map Skipped.unplaced =
      (skippedBehind stop' skipped' cs').map Skipped.unplaced := by
  fun_induction skippedBehind stop skipped cs generalizing skipped' cs' with
  | case1 skipped =>
    obtain rfl : cs' = [] := List.map_eq_nil_iff.1 hcs.symm
    rw [skippedBehind_nil, hs]
  | case2 skipped c cs ih =>
    obtain ⟨c', cs', rfl, hc, hrest⟩ := List.map_eq_cons_iff.1 hcs.symm
    have hcut := Statement.cut_congr stop stop' hs hc.symm hrest.symm
    obtain ⟨-, hskipped, hleft⟩ := Statement.Cut.mk.inj hcut
    rw [skippedBehind_cons]
    exact ih hskipped hleft

end Restyle.Css
