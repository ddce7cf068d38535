import EntityCatalog.Memo

/-!
# Scripts of calls

A script looks at cells and forces them, as often as it likes and with what it
was told so far in mind; the resolvers that it forces cells with are scripts
again.  Running a script is done by `forceWith` alone, and the resolvers of
`Program` are scripts (`Script.run_ofProgram`).

What happens while a script runs is told by a machine that makes one call at a
time.  A resolver that was begun puts a frame on the stack of the machine and
takes it off when it has succeeded or failed, so that the frames on the stack
are those of the resolvers that are running.  Every run of the machine comes to
the end that running the script gives (`State.Runs.exists_rest`).
-/

namespace EntityCatalog.Memo

variable {Value Reason : Type}

/-! ## Scripts -/

/-- A computation that calls cells, looking at them or forcing them with
resolvers.  What it does next may depend on all that it was told. -/
inductive Script (Value Reason : Type) where
  | done (outcome : Except Reason Value)
  | look (handle : Nat) (next : Cell Value → Script Value Reason)
  | force (handle : Nat) (resolver : Script Value Reason)
    (next : Except (Failure Reason) Value → Script Value Reason)

namespace Script

/-- Ask a cell for its value. -/
def get (handle : Nat) (next : Option Value → Script Value Reason) :
    Script Value Reason :=
  .look handle fun seen => next seen.value?

/-- Run a script. -/
def run : Script Value Reason → Shelf Value → Except Reason Value × Shelf Value
  | .done outcome, shelf => (outcome, shelf)
  | .look handle next, shelf => (next (shelf.cell handle)).run shelf
  | .force handle resolver next, shelf =>
    let (answer, shelf) := forceWith resolver.run handle shelf
    (next answer).run shelf

/-- A resolver as a script. -/
def ofProgram [Add Value] [ToString Value] :
    Program Value → Script Value String
  | .succeed value => .done (.ok value)
  | .fail reason => .done (.error reason)
  | .get handle =>
    .get handle fun value? => .done <|
      match value? with
      | some value => .ok value
      | none => .error "no value"
  | .describe handle => .look handle fun seen => .done (.error seen.describe)
  | .force handle resolver added recovery =>
    .force handle (ofProgram resolver) fun answer =>
      .done (settle added recovery answer)

/-- As a script a resolver runs as it does on its own. -/
theorem run_ofProgram [Add Value] [ToString Value] (program : Program Value) :
    (ofProgram program).run = program.run := by
  induction program with
  | succeed value => rfl
  | fail reason => rfl
  | get handle =>
      funext shelf
      rw [ofProgram, get, run, run, Program.run]
      cases (shelf.cell handle).value? <;> rfl
  | describe handle => rfl
  | force handle resolver added recovery induction =>
      funext shelf
      rw [ofProgram, run, Program.run, induction]
      rfl

end Script

/-! ## The machine -/

/-- A resolver that was begun: the cell it is for, and what its force goes on
with. -/
structure Frame (Value Reason : Type) where
  handle : Nat
  next : Except (Failure Reason) Value → Script Value Reason

/-- The machine: the cells, what is to be done, and the resolvers that have been
begun, innermost first. -/
structure State (Value Reason : Type) where
  shelf : Shelf Value
  control : Script Value Reason
  stack : List (Frame Value Reason)

/-- What one step of the machine did: it looked at a cell, answered a force
without running its resolver, or began to run it; or the resolver that was
running succeeded and its value was stored, or it failed. -/
inductive Event (Value Reason : Type) where
  | looked (handle : Nat) (seen : Cell Value)
  | answered (handle : Nat) (answer : Except (Failure Reason) Value)
  | began (handle : Nat)
  | stored (handle : Nat) (value : Value)
  | failed (handle : Nat) (reason : Reason)

namespace Event

/-- The handle that a call was made on. -/
def handle : Event Value Reason → Nat
  | .looked handle _ => handle
  | .answered handle _ => handle
  | .began handle => handle
  | .stored handle _ => handle
  | .failed handle _ => handle

/-- Whether a value was stored. -/
def isStore : Event Value Reason → Bool
  | .stored _ _ => true
  | _ => false

/-- A call was answered with a value that its cell had before. -/
def Gives (value : Value) : Event Value Reason → Prop
  | .looked _ seen => seen.value? = some value
  | .answered _ answer => answer = .ok value
  | _ => False

end Event

namespace State

/-- A script before its first call. -/
def start (shelf : Shelf Value) (script : Script Value Reason) :
    State Value Reason :=
  ⟨shelf, script, []⟩

/-- A script that has ended. -/
def ended (result : Except Reason Value × Shelf Value) : State Value Reason :=
  ⟨result.2, .done result.1, []⟩

/-- The cells whose resolvers are running. -/
def running (state : State Value Reason) : List Nat :=
  state.stack.map fun frame => state.shelf.index frame.handle

/-- A resolver of the cell of a handle is running. -/
def IsRunning (state : State Value Reason) (handle : Nat) : Prop :=
  state.shelf.index handle ∈ state.running

/-- One step of the machine.  A call is answered at once or begins a resolver;
where nothing is left to do the innermost resolver is over. -/
inductive Step : State Value Reason → Event Value Reason →
    State Value Reason → Prop where
  | look {shelf : Shelf Value} {stack : List (Frame Value Reason)}
      {handle : Nat} {next : Cell Value → Script Value Reason} :
      Step ⟨shelf, .look handle next, stack⟩
        (.looked handle (shelf.cell handle))
        ⟨shelf, next (shelf.cell handle), stack⟩
  | know {shelf : Shelf Value} {stack : List (Frame Value Reason)}
      {handle : Nat} {resolver : Script Value Reason}
      {next : Except (Failure Reason) Value → Script Value Reason}
      {value : Value} (known : shelf.cell handle = .resolved value) :
      Step ⟨shelf, .force handle resolver next, stack⟩
        (.answered handle (.ok value)) ⟨shelf, next (.ok value), stack⟩
  | refuse {shelf : Shelf Value} {stack : List (Frame Value Reason)}
      {handle : Nat} {resolver : Script Value Reason}
      {next : Except (Failure Reason) Value → Script Value Reason}
      (busy : shelf.cell handle = .resolving) :
      Step ⟨shelf, .force handle resolver next, stack⟩
        (.answered handle (.error .reentered))
        ⟨shelf, next (.error .reentered), stack⟩
  | begin {shelf : Shelf Value} {stack : List (Frame Value Reason)}
      {handle : Nat} {resolver : Script Value Reason}
      {next : Except (Failure Reason) Value → Script Value Reason}
      (fresh : shelf.cell handle = .unresolved) :
      Step ⟨shelf, .force handle resolver next, stack⟩ (.began handle)
        ⟨shelf.set handle .resolving, resolver, ⟨handle, next⟩ :: stack⟩
  | store {shelf : Shelf Value} {stack : List (Frame Value Reason)}
      {handle : Nat}
      {next : Except (Failure Reason) Value → Script Value Reason}
      {value : Value} :
      Step ⟨shelf, .done (.ok value), ⟨handle, next⟩ :: stack⟩
        (.stored handle value)
        ⟨shelf.set handle (.resolved value), next (.ok value), stack⟩
  | fail {shelf : Shelf Value} {stack : List (Frame Value Reason)}
      {handle : Nat}
      {next : Except (Failure Reason) Value → Script Value Reason}
      {reason : Reason} :
      Step ⟨shelf, .done (.error reason), ⟨handle, next⟩ :: stack⟩
        (.failed handle reason)
        ⟨shelf.set handle .unresolved, next (.error (.failed reason)), stack⟩

/-- Some steps of the machine and what they did. -/
inductive Runs : State Value Reason → List (Event Value Reason) →
    State Value Reason → Prop where
  | refl (state : State Value Reason) : Runs state [] state
  | step {state next last : State Value Reason} {event : Event Value Reason}
      {log : List (Event Value Reason)} (first : Step state event next)
      (rest : Runs next log last) : Runs state (event :: log) last

/-- The machine has no choice. -/
theorem Step.unique {state left right : State Value Reason}
    {first second : Event Value Reason} (toLeft : Step state first left)
    (toRight : Step state second right) :
    first = second ∧ left = right := by
  cases toLeft <;> cases toRight <;> simp_all

/-- A script that has ended makes no step. -/
theorem not_step_ended {result : Except Reason Value × Shelf Value}
    {event : Event Value Reason} {next : State Value Reason} :
    ¬ Step (ended result) event next := by
  rcases result with ⟨outcome, shelf⟩
  intro step
  cases step

namespace Runs

theorem append {first middle last : State Value Reason}
    {before after : List (Event Value Reason)}
    (runs : Runs first before middle) (further : Runs middle after last) :
    Runs first (before ++ after) last := by
  induction runs with
  | refl => exact further
  | step one _ induction => exact .step one (induction further)

/-- The machine runs a script as running it at once does, whatever resolvers
have been begun before. -/
theorem exists_run (script : Script Value Reason) (shelf : Shelf Value)
    (stack : List (Frame Value Reason)) :
    ∃ log, Runs ⟨shelf, script, stack⟩ log
      ⟨(script.run shelf).2, .done (script.run shelf).1, stack⟩ := by
  induction script generalizing shelf stack with
  | done outcome => exact ⟨[], .refl _⟩
  | look handle next induction =>
      rcases induction (shelf.cell handle) shelf stack with ⟨log, runs⟩
      exact ⟨_, .step .look runs⟩
  | force handle resolver next inner induction =>
      rw [Script.run]
      unfold forceWith
      cases now : shelf.cell handle with
      | resolved value =>
          rcases induction (.ok value) shelf stack with ⟨log, runs⟩
          exact ⟨_, .step (.know now) runs⟩
      | resolving =>
          rcases induction (.error .reentered) shelf stack with ⟨log, runs⟩
          exact ⟨_, .step (.refuse now) runs⟩
      | unresolved =>
          rcases inner (shelf.set handle .resolving)
            (⟨handle, next⟩ :: stack) with ⟨log, runs⟩
          rcases result : resolver.run (shelf.set handle .resolving) with
            ⟨outcome, after⟩
          rw [result] at runs
          -- The resolver has ended, and its frame is taken off the stack.
          cases outcome with
          | ok value =>
              rcases induction (.ok value) (after.set handle (.resolved value))
                stack with ⟨later, further⟩
              exact ⟨_, .step (.begin now)
                (runs.append (.step .store further))⟩
          | error reason =>
              rcases induction (.error (.failed reason))
                (after.set handle .unresolved) stack with ⟨later, further⟩
              exact ⟨_, .step (.begin now)
                (runs.append (.step .fail further))⟩

/-- Since the machine has no choice, a run can always be carried on to where
another one could go no further. -/
theorem exists_further {first state last : State Value Reason}
    {log all : List (Event Value Reason)}
    (runs : Runs first log state) (complete : Runs first all last)
    (stuck : ∀ event next, ¬ Step last event next) :
    ∃ rest, Runs state rest last := by
  induction runs generalizing all with
  | refl => exact ⟨all, complete⟩
  | step one _ induction =>
      cases complete with
      | refl => exact absurd one (stuck _ _)
      | step other rest =>
          rcases one.unique other with ⟨-, rfl⟩
          exact induction rest

/-- Every run comes to the end that running the script gives. -/
theorem exists_rest {shelf : Shelf Value} {script : Script Value Reason}
    {log : List (Event Value Reason)} {state : State Value Reason}
    (runs : Runs (start shelf script) log state) :
    ∃ rest, Runs state rest (ended (script.run shelf)) := by
  rcases exists_run script shelf [] with ⟨all, complete⟩
  exact runs.exists_further complete fun _ _ => not_step_ended

end Runs

end State

end EntityCatalog.Memo
