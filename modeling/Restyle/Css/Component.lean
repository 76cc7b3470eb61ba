import Restyle.Css.Token.Lexer

/-!
# Blocks

Brackets nest the tokens of a style sheet into components: a component is one
token or a block from an opening bracket to the one that closes it.  A closing
bracket that does not match the innermost open block is a token like any other,
and a block that is never closed runs to the end of the text.

`Component.ofTokens` builds the components; reading them off again gives the
tokens back (`tokens_ofTokens`).
-/

namespace Restyle.Css

/-- A token, or a block with what stands between its brackets. -/
inductive Component where
  | leaf (token : Token)
  | block (opener : Token) (contents : List Component) (closer : Option Token)
  deriving Repr

namespace Component

mutual

/-- Whether two components are the same, token by token. -/
def decEq : (c c' : Component) → Decidable (c = c')
  | .leaf t, .leaf t' => decidable_of_iff (t = t') (by simp)
  | .block opener contents closer, .block opener' contents' closer' =>
    have := decEqOf contents contents'
    decidable_of_iff (opener = opener' ∧ contents = contents' ∧ closer = closer') (by simp)
  | .leaf _, .block _ _ _ => isFalse nofun
  | .block _ _ _, .leaf _ => isFalse nofun

def decEqOf : (cs cs' : List Component) → Decidable (cs = cs')
  | [], [] => isTrue rfl
  | c :: cs, c' :: cs' =>
    have := decEq c c'
    have := decEqOf cs cs'
    decidable_of_iff (c = c' ∧ cs = cs') (by simp)
  | [], _ :: _ => isFalse nofun
  | _ :: _, [] => isFalse nofun

end

instance : DecidableEq Component := decEq

mutual

def tokens : Component → List Token
  | .leaf t => [t]
  | .block opener contents closer => opener :: tokensOf contents ++ closer.toList

def tokensOf : List Component → List Token
  | [] => []
  | c :: cs => c.tokens ++ tokensOf cs

end

/-- A component as it was written. -/
def text (c : Component) : List Char :=
  c.tokens.flatMap Token.text

def start : Component → Location
  | .leaf t => t.start
  | .block opener _ _ => opener.start

def isLeaf (kind : Token.Kind) : Component → Bool
  | .leaf t => t.kind == kind
  | .block _ _ _ => false

def isBlock (bracket : Bracket) : Component → Bool
  | .leaf _ => false
  | .block opener _ _ => opener.kind == .opening bracket

def isWhiteSpace (c : Component) : Bool := c.isLeaf .whiteSpace

def isComment (c : Component) : Bool := c.isLeaf .comment

def isSemicolon (c : Component) : Bool := c.isLeaf .semicolon

def isComma (c : Component) : Bool := c.isLeaf .comma

def isCurly (c : Component) : Bool := c.isBlock .curly

/-! ## Nesting -/

/-- A block that is still open: its opening bracket and what stands before it at its level, last
component first. -/
structure Pending where
  opener : Token
  before : List Component

/-- How far nesting has come: the open blocks, innermost first, and what has been read at the
level inside them, last component first. -/
structure Nesting where
  level : List Component := []
  pending : List Pending := []

namespace Nesting

/-- The next token opens a block, closes the innermost one or joins the current level. -/
def push (n : Nesting) (t : Token) : Nesting :=
  match t.kind.opens? with
  | some _ => ⟨[], ⟨t, n.level⟩ :: n.pending⟩
  | none =>
    match n.pending with
    | [] => ⟨.leaf t :: n.level, []⟩
    | p :: ps =>
      if t.kind.closes?.isSome && t.kind.closes? == p.opener.kind.opens? then
        ⟨.block p.opener n.level.reverse (some t) :: p.before, ps⟩
      else ⟨.leaf t :: n.level, p :: ps⟩

/-- The components of the outermost level once the blocks still open have been cut off. -/
def finish (level : List Component) : List Pending → List Component
  | [] => level.reverse
  | p :: ps => finish (.block p.opener level.reverse none :: p.before) ps

end Nesting

def ofTokens (ts : List Token) : List Component :=
  let n := ts.foldl Nesting.push {}
  Nesting.finish n.level n.pending

/-- The components of a text that starts at a given place. -/
def ofText (loc : Location) (cs : List Char) : List Component :=
  ofTokens (Token.lex loc cs)

/-! ## Nothing is lost -/

@[simp] theorem tokensOf_nil : tokensOf [] = [] := by
  simp [tokensOf]

@[simp] theorem tokensOf_cons (c : Component) (cs : List Component) :
    tokensOf (c :: cs) = c.tokens ++ tokensOf cs := by
  simp [tokensOf]

@[simp] theorem tokensOf_append (cs ds : List Component) :
    tokensOf (cs ++ ds) = tokensOf cs ++ tokensOf ds := by
  induction cs with
  | nil => simp
  | cons c cs ih => simp [ih]

/-- The tokens that a nesting in progress holds, in order. -/
def Nesting.tokens (n : Nesting) : List Token :=
  (n.pending.reverse.flatMap fun p => tokensOf p.before.reverse ++ [p.opener]) ++
    tokensOf n.level.reverse

theorem Nesting.tokens_push (n : Nesting) (t : Token) : (n.push t).tokens = n.tokens ++ [t] := by
  unfold Nesting.push
  split
  · simp [Nesting.tokens]
  · rcases n with ⟨level, _ | ⟨p, ps⟩⟩
    · simp [Nesting.tokens, Component.tokens]
    · dsimp only
      split <;> simp [Nesting.tokens, Component.tokens]

theorem Nesting.tokensOf_finish (level : List Component) (ps : List Pending) :
    tokensOf (finish level ps) = Nesting.tokens ⟨level, ps⟩ := by
  induction ps generalizing level with
  | nil => simp [finish, Nesting.tokens]
  | cons p ps ih => simp [finish, ih, Nesting.tokens, Component.tokens]

/-- The components of a row of tokens hold just these tokens. -/
theorem tokens_ofTokens (ts : List Token) : tokensOf (ofTokens ts) = ts := by
  have key : ∀ n : Nesting, (ts.foldl Nesting.push n).tokens = n.tokens ++ ts := by
    induction ts with
    | nil => simp
    | cons t ts ih => intro n; simp [ih, Nesting.tokens_push]
  rw [ofTokens, Nesting.tokensOf_finish]
  exact (key {}).trans (by simp [Nesting.tokens])

end Component

end Restyle.Css
