import Restyle.Css.Cursor
import Restyle.Css.Prelude
import Restyle.Css.Reading

/-!
# Bodies

The body of a rule is the block in curly brackets that follows its prelude.  A
body may be missing, and a body may lack its closing bracket.

A reader of the inside may stop anywhere in it.  What it leaves is passed over,
and the block has to be exhausted then, or else no reader goes on.  It always is
(`readInside_eq`).
-/

namespace Restyle.Css

inductive Body where
  /-- No block stands at the given place. -/
  | missing (place : Location)
  /-- A block with its contents, the place where they end, and whether a bracket closes it. -/
  | block (contents : List Component) (stop : Location) (closed : Bool)
  deriving Repr, DecidableEq

namespace Body

def contents : Body → List Component
  | .missing _ => []
  | .block contents _ _ => contents

def stop : Body → Location
  | .missing place => place
  | .block _ stop _ => stop

/-- The body at the front of a level that ends at `stop`, and what follows it. -/
def ofLevel (stop : Location) : List Component → Body × List Component
  | [] => (.missing stop, [])
  | .leaf t :: cs => (.missing t.start, .leaf t :: cs)
  | .block opener contents closer :: cs =>
    if opener.kind = .opening .curly then
      (.block contents ((closer.map Token.start).getD stop) closer.isSome, cs)
    else (.missing opener.start, .block opener contents closer :: cs)

/-- Reads the inside of a block that ends at `stop` and drains what has been left of it.  From
wherever in the block the reader has stopped, draining goes to the same place.  Something behind that
place stops silent readers too. -/
def readInside {α : Type} (contents : List Component) (stop : Location) (inside : Reading α) :
    Reading α := fun o =>
  let (notes, result) := inside o
  let left := (Cursor.inside contents).drain
  if left.isExhausted then (notes, result)
  else (notes, .error ⟨.unbalanced, (left.rest.head?.map Token.start).getD stop, o.source⟩)

/-- Reads a body by reading what is inside.  A missing block is a problem, and so is one that is not
closed, once its inside has been read. -/
def read {α : Type} (construct : Construct) (body : Body) (inside : Reading α) :
    Reading (Option α) :=
  match body with
  | .missing place => do
    Reading.report (.noBlock construct) place
    return none
  | .block contents stop closed => do
    let a ← readInside contents stop inside
    if !closed then Reading.report (.openBlock construct) stop
    return some a

theorem readInside_eq {α : Type} (contents : List Component) (stop : Location)
    (inside : Reading α) : readInside contents stop inside = inside := by
  funext o
  simp only [readInside, Cursor.isExhausted_drain, if_true]

theorem read_block {α : Type} (construct : Construct) (contents : List Component)
    (stop : Location) (closed : Bool) (inside : Reading α) :
    read construct (.block contents stop closed) inside = (do
      let a ← inside
      if !closed then Reading.report (.openBlock construct) stop
      return some a) := by
  rw [read, readInside_eq]

theorem tokenCount_ofLevel (stop : Location) (cs : List Component) :
    Component.tokenCount (ofLevel stop cs).1.contents + Component.tokenCount (ofLevel stop cs).2
      ≤ Component.tokenCount cs := by
  rcases cs with _ | ⟨_ | ⟨opener, contents, closer⟩, cs⟩
  · simp [ofLevel, Body.contents, Component.tokenCount]
  · simp [ofLevel, Body.contents, Component.tokenCount]
  · by_cases h : opener.kind = .opening .curly
    · simp [ofLevel, h, Body.contents, Component.tokenCount, Component.tokens]; omega
    · simp [ofLevel, h, Body.contents, Component.tokenCount]

end Body

end Restyle.Css
