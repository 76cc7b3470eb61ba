import Restyle.Css.Problem

/-!
# Reading with notes

A reader goes through a style sheet in one of two ways.  A strict reader stops
at the first problem; a silent one notes it and goes on.  Either way it keeps
notes of what it passes over, in order.
-/

namespace Restyle.Css

/-- How a style sheet is to be read. -/
structure ReadOptions where
  /-- The name of the text, for problems to carry. -/
  source : Option String := none
  /-- Whether problems are noted rather than fatal. -/
  silent : Bool := false
  deriving Repr, DecidableEq

inductive Notice where
  | problem (problem : Problem)
  /-- A closing curly bracket without a block to close, passed over on the given line. -/
  | strayBracket (line : Nat)
  deriving Repr, DecidableEq

def Notice.problem? : Notice → Option Problem
  | .problem p => some p
  | .strayBracket _ => none

/-- A computation that keeps notes and, when it is strict, may stop at a problem. -/
def Reading (α : Type) : Type :=
  ReadOptions → List Notice × Except Problem α

namespace Reading

variable {α β γ : Type}

protected def pure (a : α) : Reading α :=
  fun _ => ([], .ok a)

/-- Reads one thing after another.  The second is not read once a problem has stopped the first. -/
protected def bind (m : Reading α) (f : α → Reading β) : Reading β := fun o =>
  match m o with
  | (notes, .error p) => (notes, .error p)
  | (notes, .ok a) => (notes ++ (f a o).1, (f a o).2)

/-- Reads one thing and changes what has been read. -/
protected def map (f : α → β) (m : Reading α) : Reading β := fun o =>
  ((m o).1, (m o).2.map f)

instance : Monad Reading where
  pure := Reading.pure
  bind := Reading.bind
  map := Reading.map

def note (n : Notice) : Reading Unit :=
  fun _ => ([n], .ok ())

/-- Reports a problem: a silent reader notes it, a strict one stops. -/
def report (cause : Problem.Cause) (location : Location) : Reading Unit := fun o =>
  let p : Problem := ⟨cause, location, o.source⟩
  if o.silent then ([.problem p], .ok ()) else ([], .error p)

theorem pure_run (a : α) (o : ReadOptions) : (pure a : Reading α) o = ([], .ok a) := rfl

theorem bind_run (m : Reading α) (f : α → Reading β) (o : ReadOptions) :
    (m >>= f) o = match m o with
      | (notes, .error p) => (notes, .error p)
      | (notes, .ok a) => (notes ++ (f a o).1, (f a o).2) := rfl

theorem map_run (f : α → β) (m : Reading α) (o : ReadOptions) :
    (f <$> m) o = ((m o).1, (m o).2.map f) := rfl

instance : LawfulMonad Reading := by
  refine LawfulMonad.mk' Reading (fun m => ?_) (fun a f => ?_) (fun m f g => ?_)
    (fun _ _ => rfl) (fun _ _ => rfl) (fun _ _ => rfl) (fun f m => ?_) (fun _ _ => rfl)
  · funext o
    change Reading.map id m o = m o
    rcases h : m o with ⟨notes, _ | a⟩ <;> simp [Reading.map, Except.map, h]
  · funext o
    change Reading.bind (Reading.pure a) f o = f a o
    simp [Reading.bind, Reading.pure]
  · funext o
    change Reading.bind (Reading.bind m f) g o = Reading.bind m (fun a => Reading.bind (f a) g) o
    rcases h : m o with ⟨notes, _ | a⟩
    · simp [Reading.bind, h]
    · rcases h' : f a o with ⟨notes', _ | b⟩ <;> simp [Reading.bind, h, h']
  · funext o
    change Reading.bind m (fun a => Reading.pure (f a)) o = Reading.map f m o
    rcases h : m o with ⟨notes, _ | a⟩ <;>
      simp [Reading.bind, Reading.pure, Reading.map, Except.map, h]

end Reading

end Restyle.Css
