import Restyle.Css.Component
import Restyle.Text.Blank

/-!
# What stands in front of a block

The prelude of a rule runs to the block in curly brackets that is its body, or
to the end of its level; the prelude of an at-rule ends at a semicolon too.
Its text is that of its components without the comments among them.  Blocks are
taken as they stand, comments inside them included.
-/

namespace Restyle.Css

namespace Component

/-- The text of several components without the comments among them. -/
def plainText (cs : List Component) : List Char :=
  (cs.filter (!·.isComment)).flatMap text

/-- The text of several components, comments left out and ends trimmed. -/
def trimmedText (cs : List Component) : String :=
  String.ofList (Text.trim (plainText cs))

/-- Cuts a level at every component of some kind, which is left out. -/
def splitOn (p : Component → Bool) : List Component → List (List Component)
  | [] => [[]]
  | c :: cs =>
    if p c then [] :: splitOn p cs
    else match splitOn p cs with
      | [] => [[c]]
      | d :: ds => (c :: d) :: ds

/-- What stands in front of the next block in curly brackets. -/
def untilCurly (cs : List Component) : List Component :=
  cs.takeWhile (!·.isCurly)

/-- A level from its next block in curly brackets on. -/
def fromCurly (cs : List Component) : List Component :=
  cs.dropWhile (!·.isCurly)

/-- What stands in front of the next semicolon or block in curly brackets. -/
def untilEnd (cs : List Component) : List Component :=
  cs.takeWhile fun c => !(c.isCurly || c.isSemicolon)

/-- A level from its next semicolon or block in curly brackets on. -/
def fromEnd (cs : List Component) : List Component :=
  cs.dropWhile fun c => !(c.isCurly || c.isSemicolon)

def tokenCount (cs : List Component) : Nat :=
  (tokensOf cs).length

theorem tokenCount_dropWhile_le (p : Component → Bool) (cs : List Component) :
    tokenCount (cs.dropWhile p) ≤ tokenCount cs := by
  have h := congrArg tokenCount (List.takeWhile_append_dropWhile (p := p) (l := cs))
  simp only [tokenCount, tokensOf_append, List.length_append] at h
  simp only [tokenCount]
  omega

theorem tokenCount_cons (c : Component) (cs : List Component) :
    tokenCount (c :: cs) = c.tokens.length + tokenCount cs := by
  simp [tokenCount]

theorem tokens_length_pos (c : Component) : 0 < c.tokens.length := by
  cases c <;> simp [tokens]

theorem tokenCount_lt_cons (c : Component) (cs : List Component) :
    tokenCount cs < tokenCount (c :: cs) := by
  have := tokens_length_pos c
  simp only [tokenCount_cons]
  omega

theorem fromCurly_of_isCurly {c : Component} (h : c.isCurly = true) (cs : List Component) :
    fromCurly (c :: cs) = c :: cs := by
  simp [fromCurly, h]

theorem tokenCount_fromCurly_lt {c : Component} (h : c.isCurly = false) (cs : List Component) :
    tokenCount (fromCurly (c :: cs)) < tokenCount (c :: cs) := by
  have := tokenCount_dropWhile_le (!·.isCurly) cs
  have := tokenCount_lt_cons c cs
  simp only [fromCurly, List.dropWhile_cons, h, Bool.not_false, ite_true]
  omega

theorem tokenCount_fromEnd_le (cs : List Component) : tokenCount (fromEnd cs) ≤ tokenCount cs :=
  tokenCount_dropWhile_le _ cs

end Component

/-- A block that has been refused together with what stood in front of it.  Readers pass over its
inside only with the next thing they read, which therefore starts inside the block. -/
structure Skipped where
  /-- The place just behind the opening bracket. -/
  start : Location
  /-- The text from there through the closing bracket. -/
  text : List Char
  deriving Repr, DecidableEq

namespace Skipped

/-- Refuses the block in curly brackets at the front of a level, if there is one. -/
def ofLevel : List Component → Option Skipped × List Component
  | .block opener contents closer :: cs =>
    if opener.kind = .opening .curly then
      (some ⟨opener.stop, contents.flatMap Component.text ++ closer.toList.flatMap Token.text⟩, cs)
    else (none, .block opener contents closer :: cs)
  | cs => (none, cs)

theorem tokenCount_ofLevel_le (cs : List Component) :
    Component.tokenCount (ofLevel cs).2 ≤ Component.tokenCount cs := by
  rcases cs with _ | ⟨_ | ⟨opener, contents, closer⟩, cs⟩
  · simp [ofLevel]
  · simp [ofLevel]
  · by_cases h : opener.kind = .opening .curly
    · simpa [ofLevel, h] using Nat.le_of_lt (Component.tokenCount_lt_cons _ cs)
    · simp [ofLevel, h]

theorem ofLevel_snd_of_isCurly {c : Component} (h : c.isCurly = true) (cs : List Component) :
    (ofLevel (c :: cs)).2 = cs := by
  cases c with
  | leaf t => simp [Component.isCurly, Component.isBlock] at h
  | block opener contents closer =>
    simp only [Component.isCurly, Component.isBlock, beq_iff_eq] at h
    simp [ofLevel, h]

theorem tokenCount_ofLevel_fromCurly_lt (c : Component) (cs : List Component) :
    Component.tokenCount (ofLevel (Component.fromCurly (c :: cs))).2
      < Component.tokenCount (c :: cs) := by
  cases h : c.isCurly with
  | true =>
    rw [Component.fromCurly_of_isCurly h, ofLevel_snd_of_isCurly h]
    exact Component.tokenCount_lt_cons c cs
  | false =>
    exact Nat.lt_of_le_of_lt (tokenCount_ofLevel_le _) (Component.tokenCount_fromCurly_lt h cs)

/-- Where the next thing starts. -/
def startOf (skipped : Option Skipped) (c : Component) : Location :=
  (skipped.map Skipped.start).getD c.start

/-- The text of a component with the skipped block in front of it. -/
def textOf (skipped : Option Skipped) (c : Component) : List Char :=
  (skipped.map Skipped.text).getD [] ++ c.text

end Skipped

/-- The selectors in front of a block: its text cut at the commas outside nested blocks.  A skipped
block is text of the first selector unless that is empty. -/
def selectorsOf (skipped : Option Skipped) (cs : List Component) : List String :=
  let lead := match skipped, cs with
    | some s, c :: _ => if c.isComma then [] else s.text
    | _, _ => []
  let piece (text : List Char) := String.ofList (Text.trim text)
  match Component.splitOn Component.isComma cs with
  | [] => []
  | first :: others =>
    piece (lead ++ Component.plainText first) ::
      others.map fun cs => piece (Component.plainText cs)

end Restyle.Css
