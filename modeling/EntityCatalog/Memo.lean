/-!
# Cells that are resolved once

A cell starts unresolved.  Forcing it runs a resolver, keeps the value of the
first one that succeeds, and from then on gives that value without running
anything.  A failing resolver leaves the cell unresolved.  While a resolver
runs its cell is in a state of its own, so a force of the same cell from
inside is noticed and refused.

Several handles may share a cell.  `Shelf` holds cells and the handles onto
them, and `Program` is the language of resolvers: a resolver may look at cells
and may force them with resolvers of its own, to any depth.
-/

namespace EntityCatalog.Memo

variable {Value Reason : Type}

/-- The state of a cell. -/
inductive Cell (Value : Type) where
  | unresolved
  | resolving
  | resolved (value : Value)
  deriving DecidableEq, Repr, Inhabited

namespace Cell

/-- The value of a resolved cell. -/
def value? : Cell Value → Option Value
  | .resolved value => some value
  | _ => none

/-- Whether the cell holds a value. -/
def isResolved (cell : Cell Value) : Bool :=
  cell.value?.isSome

/-- The cell as text. -/
def describe [ToString Value] : Cell Value → String
  | .unresolved => "Lazy(<unresolved>)"
  | .resolving => "Lazy(<resolving>)"
  | .resolved value => "Lazy(" ++ toString value ++ ")"

end Cell

/-- Why a force gave no value: a resolver of the same cell is running, or the
resolver failed. -/
inductive Failure (Reason : Type) where
  | reentered
  | failed (reason : Reason)
  deriving DecidableEq, Repr

/-- What an outer resolver says of an inner failure. -/
def Failure.reason : Failure String → String
  | .reentered => "reentered"
  | .failed reason => reason

/-- A resolver.  It succeeds, fails, asks a cell for its value, fails with the
text of a cell, or forces a cell: then it returns the value with `added` added,
and in place of a failure `recovery`, if there is one. -/
inductive Program (Value : Type) where
  | succeed (value : Value)
  | fail (reason : String)
  | get (handle : Nat)
  | describe (handle : Nat)
  | force (handle : Nat) (resolver : Program Value) (added : Value)
    (recovery : Option Value)
  deriving Inhabited

/-- Cells, and handles onto them: for each handle the number of its cell. -/
structure Shelf (Value : Type) where
  cells : List (Cell Value)
  handles : List Nat
  deriving Inhabited

namespace Shelf

/-- A shelf without cells. -/
def empty : Shelf Value := ⟨[], []⟩

/-- Add a cell with a handle onto it. -/
def add (shelf : Shelf Value) (cell : Cell Value) : Shelf Value :=
  ⟨shelf.cells ++ [cell], shelf.handles ++ [shelf.cells.length]⟩

/-- The number of the cell a handle leads to. -/
def index (shelf : Shelf Value) (handle : Nat) : Nat :=
  shelf.handles[handle]?.getD 0

/-- Add another handle onto the cell of a handle. -/
def share (shelf : Shelf Value) (handle : Nat) : Shelf Value :=
  { shelf with handles := shelf.handles ++ [shelf.index handle] }

/-- The cell of a handle. -/
def cell (shelf : Shelf Value) (handle : Nat) : Cell Value :=
  shelf.cells[shelf.index handle]?.getD .unresolved

/-- Put a state into the cell of a handle. -/
def set (shelf : Shelf Value) (handle : Nat) (cell : Cell Value) :
    Shelf Value :=
  { shelf with cells := shelf.cells.set (shelf.index handle) cell }

/-- The cells as the handles see them. -/
def view (shelf : Shelf Value) : List (Cell Value) :=
  (List.range shelf.handles.length).map shelf.cell

end Shelf

/-- Force a cell with a resolver that is run only if it is needed. -/
def forceWith (run : Shelf Value → Except Reason Value × Shelf Value)
    (handle : Nat) (shelf : Shelf Value) :
    Except (Failure Reason) Value × Shelf Value :=
  match shelf.cell handle with
  | .resolved value => (.ok value, shelf)
  | .resolving => (.error .reentered, shelf)
  | .unresolved =>
    match run (shelf.set handle .resolving) with
    | (.ok value, shelf) => (.ok value, shelf.set handle (.resolved value))
    | (.error reason, shelf) =>
      (.error (.failed reason), shelf.set handle .unresolved)

section Programs

variable [Add Value]

/-- What a resolver makes of the outcome of an inner force. -/
def settle (added : Value) (recovery : Option Value) :
    Except (Failure String) Value → Except String Value
  | .ok value => .ok (value + added)
  | .error failure =>
    match recovery with
    | some value => .ok value
    | none => .error failure.reason

variable [ToString Value]

/-- Run a resolver. -/
def Program.run :
    Program Value → Shelf Value → Except String Value × Shelf Value
  | .succeed value, shelf => (.ok value, shelf)
  | .fail reason, shelf => (.error reason, shelf)
  | .get handle, shelf =>
    match (shelf.cell handle).value? with
    | some value => (.ok value, shelf)
    | none => (.error "no value", shelf)
  | .describe handle, shelf => (.error (shelf.cell handle).describe, shelf)
  | .force handle resolver added recovery, shelf =>
    let (outcome, shelf) := forceWith resolver.run handle shelf
    (settle added recovery outcome, shelf)

/-- Force a cell. -/
def Shelf.force (shelf : Shelf Value) (handle : Nat)
    (resolver : Program Value) :
    Except (Failure String) Value × Shelf Value :=
  forceWith resolver.run handle shelf

end Programs

end EntityCatalog.Memo
