import EntityCatalog.Proofs.Memo.Scripts

/-!
# Cells under reentrant use

Whatever calls a script makes, and however its resolvers call the cell that
they are for, a cell is in the state of being resolved exactly while one of its
resolvers is running, and no cell has two of them (`Shelf.Tracks`).  Every step
of the machine keeps that.  From it follows what a script can tell of a cell
(`Script.Memoizes`): a force is refused exactly from inside a resolver of the
cell, one resolver at most stores a value, and that value is then the answer to
every call.
-/

namespace EntityCatalog.Memo

variable {Value Reason : Type}

/-! ## Shelves -/

namespace Shelf

variable {shelf : Shelf Value}

/-- Every handle leads to a cell, and no cell is being resolved. -/
structure Ready (shelf : Shelf Value) : Prop where
  aimed : ∀ index ∈ shelf.handles, index < shelf.cells.length
  idle : ∀ cell ∈ shelf.cells, cell ≠ .resolving

/-- Whatever handle is asked for, there is a cell. -/
def Stocked (shelf : Shelf Value) : Prop :=
  ∀ handle, shelf.index handle < shelf.cells.length

theorem ready_empty : (empty : Shelf Value).Ready where
  aimed _ member := absurd member List.not_mem_nil
  idle _ member := absurd member List.not_mem_nil

theorem Ready.add (ready : shelf.Ready) {cell : Cell Value}
    (idle : cell ≠ .resolving) : (shelf.add cell).Ready := by
  constructor
  · intro index member
    rw [Shelf.add, List.length_append, List.length_singleton]
    rcases List.mem_append.mp member with before | last
    · exact Nat.lt_succ_of_lt (ready.aimed index before)
    · rw [List.mem_singleton.mp last]
      exact Nat.lt_succ_self _
  · intro other member
    rcases List.mem_append.mp member with before | last
    · exact ready.idle other before
    · rw [List.mem_singleton.mp last]
      exact idle

/-- Where one handle was given out, every handle leads to a cell: those that
were not given out lead to the first one. -/
theorem Ready.stocked (ready : shelf.Ready) {handle : Nat}
    (issued : handle < shelf.handles.length) : shelf.Stocked := by
  intro other
  have occupied : 0 < shelf.cells.length :=
    Nat.zero_lt_of_lt (ready.aimed _ (List.getElem_mem issued))
  rw [index]
  cases given : shelf.handles[other]? with
  | none => exact occupied
  | some index => exact ready.aimed index (List.mem_of_getElem? given)

theorem Ready.share (ready : shelf.Ready) {handle : Nat}
    (issued : handle < shelf.handles.length) :
    (shelf.share handle).Ready := by
  refine ⟨fun index member => ?_, ready.idle⟩
  rcases List.mem_append.mp member with before | last
  · exact ready.aimed index before
  · rw [List.mem_singleton.mp last]
    exact ready.stocked issued handle

/-- Handles onto one cell see the same. -/
theorem cell_congr {left right : Nat}
    (same : shelf.index left = shelf.index right) :
    shelf.cell left = shelf.cell right := by
  rw [cell, cell, same]

@[simp]
theorem index_set (handle other : Nat) (cell : Cell Value) :
    (shelf.set handle cell).index other = shelf.index other :=
  rfl

theorem Stocked.set (stocked : shelf.Stocked) (handle : Nat)
    (cell : Cell Value) :
    (shelf.set handle cell).Stocked := by
  intro other
  rw [index_set, Shelf.set, List.length_set]
  exact stocked other

/-- All handles onto a cell see what was put into it, and no others do. -/
theorem cell_set {handle : Nat} (inside : shelf.index handle < shelf.cells.length)
    (other : Nat) (cell : Cell Value) :
    (shelf.set handle cell).cell other =
      if shelf.index other = shelf.index handle then cell
      else shelf.cell other := by
  rw [Shelf.cell, index_set, Shelf.set, List.getElem?_set]
  by_cases same : shelf.index other = shelf.index handle
  · rw [if_pos same.symm, if_pos inside, if_pos same]
    rfl
  · rw [if_neg (Ne.symm same), if_neg same]
    rfl

theorem Stocked.cell_set (stocked : shelf.Stocked) (handle other : Nat)
    (cell : Cell Value) :
    (shelf.set handle cell).cell other =
      if shelf.index other = shelf.index handle then cell
      else shelf.cell other :=
  Shelf.cell_set (stocked handle) other cell

/-- A cell with a value is not the one that is written where there is none. -/
theorem Stocked.cell_set_of_resolved (stocked : shelf.Stocked)
    {handle written : Nat} {value : Value} (cell : Cell Value)
    (resolved : shelf.cell handle = .resolved value)
    (vacant : (shelf.cell written).isResolved = false) :
    shelf.index written ≠ shelf.index handle ∧
      (shelf.set written cell).cell handle = .resolved value := by
  have apart : shelf.index written ≠ shelf.index handle := by
    intro same
    rw [cell_congr same, resolved] at vacant
    cases vacant
  refine ⟨apart, ?_⟩
  rw [stocked.cell_set, if_neg apart.symm]
  exact resolved

/-! ## Running resolvers -/

/-- The cells that are being resolved are those of the resolvers that are
running, each of one of them. -/
structure Tracks (shelf : Shelf Value) (running : List Nat) : Prop where
  stocked : shelf.Stocked
  apart : running.Nodup
  busy : ∀ handle,
    shelf.cell handle = .resolving ↔ shelf.index handle ∈ running

namespace Tracks

variable {running : List Nat} {handle : Nat}

/-- At first no resolver is running. -/
theorem of_ready (ready : shelf.Ready) (stocked : shelf.Stocked) :
    shelf.Tracks [] where
  stocked := stocked
  apart := List.nodup_nil
  busy handle := by
    refine iff_of_false (fun resolving => ?_) List.not_mem_nil
    have inside := stocked handle
    rw [cell, List.getElem?_eq_getElem inside, Option.getD_some] at resolving
    exact ready.idle _ (List.getElem_mem inside) resolving

/-- A resolver of an unresolved cell is begun. -/
theorem begin (tracks : shelf.Tracks running)
    (fresh : shelf.cell handle = .unresolved) :
    (shelf.set handle .resolving).Tracks (shelf.index handle :: running) where
  stocked := tracks.stocked.set _ _
  apart := by
    refine List.nodup_cons.mpr ⟨fun inside => ?_, tracks.apart⟩
    have resolving := (tracks.busy handle).mpr inside
    rw [fresh] at resolving
    cases resolving
  busy other := by
    rw [tracks.stocked.cell_set, index_set]
    split
    · rename_i same
      exact iff_of_true rfl (List.mem_cons.mpr (Or.inl same))
    · rename_i different
      rw [tracks.busy other, List.mem_cons, or_iff_right different]

/-- A resolver is over and leaves its cell in another state than that of being
resolved. -/
theorem settle (tracks : shelf.Tracks (shelf.index handle :: running))
    {cell : Cell Value} (settled : cell ≠ .resolving) :
    (shelf.set handle cell).Tracks running where
  stocked := tracks.stocked.set _ _
  apart := (List.nodup_cons.mp tracks.apart).2
  busy other := by
    rw [tracks.stocked.cell_set, index_set]
    split
    · rename_i same
      rw [same]
      exact iff_of_false settled (List.nodup_cons.mp tracks.apart).1
    · rename_i different
      rw [tracks.busy other, List.mem_cons, or_iff_right different]

/-- The cell of a running resolver has no value. -/
theorem isResolved (tracks : shelf.Tracks (shelf.index handle :: running)) :
    (shelf.cell handle).isResolved = false := by
  rw [(tracks.busy handle).mpr (List.mem_cons_self ..)]
  rfl

end Tracks

end Shelf

/-! ## Steps -/

namespace State

/-- A state in which the cells and the running resolvers are in accord. -/
abbrev Sound (state : State Value Reason) : Prop :=
  state.shelf.Tracks state.running

variable {state next : State Value Reason} {event : Event Value Reason}

theorem Sound.step (sound : state.Sound) (step : Step state event next) :
    next.Sound := by
  cases step with
  | look => exact sound
  | know => exact sound
  | refuse => exact sound
  | begin fresh => exact Shelf.Tracks.begin sound fresh
  | store => exact Shelf.Tracks.settle sound nofun
  | fail => exact Shelf.Tracks.settle sound nofun

/-- No step moves a handle. -/
theorem Step.index_eq (step : Step state event next) :
    next.shelf.index = state.shelf.index := by
  cases step <;> rfl

/-- A cell that has a value keeps it, and every call on it gives that value. -/
theorem Step.gives {handle : Nat} {value : Value}
    (step : Step state event next) (sound : state.Sound)
    (resolved : state.shelf.cell handle = .resolved value) :
    next.shelf.cell handle = .resolved value ∧
      (state.shelf.index event.handle = state.shelf.index handle →
        event.Gives value) := by
  cases step with
  | @look shelf stack called next =>
      refine ⟨resolved, fun same => ?_⟩
      have seen : shelf.cell called = .resolved value :=
        (Shelf.cell_congr same).trans resolved
      rw [seen]
      rfl
  | know known =>
      refine ⟨resolved, fun same => ?_⟩
      have seen := known.symm.trans ((Shelf.cell_congr same).trans resolved)
      cases seen
      rfl
  | refuse busy =>
      refine ⟨resolved, fun same => ?_⟩
      have seen := busy.symm.trans ((Shelf.cell_congr same).trans resolved)
      cases seen
  | begin fresh =>
      rcases sound.stocked.cell_set_of_resolved .resolving resolved
        (by rw [fresh]; rfl) with ⟨apart, kept⟩
      exact ⟨kept, fun same => absurd same apart⟩
  | store =>
      rcases sound.stocked.cell_set_of_resolved _ resolved
        (Shelf.Tracks.isResolved sound) with ⟨apart, kept⟩
      exact ⟨kept, fun same => absurd same apart⟩
  | fail =>
      rcases sound.stocked.cell_set_of_resolved _ resolved
        (Shelf.Tracks.isResolved sound) with ⟨apart, kept⟩
      exact ⟨kept, fun same => absurd same apart⟩

/-- What a resolver gave is then the value of its cell. -/
theorem Step.cell_of_stored {handle : Nat} {value : Value}
    (step : Step state (.stored handle value) next) (sound : state.Sound) :
    next.shelf.cell handle = .resolved value := by
  cases step
  rw [sound.stocked.cell_set, if_pos rfl]

/-- When a resolver has failed, its cell is unresolved. -/
theorem Step.cell_of_failed {handle : Nat} {reason : Reason}
    (step : Step state (.failed handle reason) next) (sound : state.Sound) :
    next.shelf.cell handle = .unresolved := by
  cases step
  rw [sound.stocked.cell_set, if_pos rfl]

/-- A force is refused exactly if a resolver of its cell is running, and then
nothing but its answer changes. -/
theorem Step.refused_iff {shelf : Shelf Value}
    {stack : List (Frame Value Reason)} {handle : Nat}
    {resolver : Script Value Reason}
    {onward : Except (Failure Reason) Value → Script Value Reason}
    (step : Step ⟨shelf, .force handle resolver onward, stack⟩ event next)
    (sound : Sound ⟨shelf, .force handle resolver onward, stack⟩) :
    (event = .answered handle (.error .reentered) ↔
      IsRunning ⟨shelf, .force handle resolver onward, stack⟩ handle) ∧
    (event = .answered handle (.error .reentered) →
      next = ⟨shelf, onward (.error .reentered), stack⟩) := by
  have busy := sound.busy handle
  cases step with
  | know known =>
      refine ⟨iff_of_false (fun same => by cases same) fun running => ?_,
        fun same => by cases same⟩
      rw [busy.mpr running] at known
      cases known
  | refuse resolving =>
      exact ⟨iff_of_true rfl (busy.mp resolving), fun _ => rfl⟩
  | begin fresh =>
      refine ⟨iff_of_false (fun same => by cases same) fun running => ?_,
        fun same => by cases same⟩
      rw [busy.mpr running] at fresh
      cases fresh

/-! ## Runs -/

namespace Runs

variable {last : State Value Reason} {log : List (Event Value Reason)}

theorem sound (runs : Runs state log last) (sound : state.Sound) :
    last.Sound := by
  induction runs with
  | refl => exact sound
  | step one _ induction => exact induction (sound.step one)

theorem index_eq (runs : Runs state log last) :
    last.shelf.index = state.shelf.index := by
  induction runs with
  | refl => rfl
  | step one _ induction => rw [induction, one.index_eq]

/-- A run can be parted between any two of its steps. -/
theorem exists_middle {before after : List (Event Value Reason)}
    (runs : Runs state (before ++ after) last) :
    ∃ middle, Runs state before middle ∧ Runs middle after last := by
  induction before generalizing state with
  | nil => exact ⟨state, .refl _, runs⟩
  | cons event before induction =>
      cases runs with
      | step one rest =>
          rcases induction rest with ⟨middle, first, second⟩
          exact ⟨middle, .step one first, second⟩

/-- Once a cell has a value, every call on it gives that value. -/
theorem gives {handle : Nat} {value : Value} (runs : Runs state log last)
    (sound : state.Sound)
    (resolved : state.shelf.cell handle = .resolved value) :
    ∀ event ∈ log, state.shelf.index event.handle = state.shelf.index handle →
      event.Gives value := by
  induction runs with
  | refl => exact fun _ member => absurd member List.not_mem_nil
  | step one _ induction =>
      rcases one.gives sound resolved with ⟨kept, answered⟩
      intro event member same
      rcases List.mem_cons.mp member with rfl | later
      · exact answered same
      · refine induction (sound.step one) kept event later ?_
        rw [one.index_eq]
        exact same

/-- At most one value is stored in a cell. -/
theorem stores_le_one (runs : Runs state log last) (sound : state.Sound)
    (handle : Nat) :
    (log.filter fun event => event.isStore &&
      decide (state.shelf.index event.handle = state.shelf.index handle)).length
      ≤ 1 := by
  induction runs with
  | refl => exact Nat.zero_le 1
  | @step state next last event log one rest induction =>
      have later := induction (sound.step one)
      rw [one.index_eq] at later
      rw [List.filter_cons]
      split
      · rename_i stores
        rw [Bool.and_eq_true, decide_eq_true_eq] at stores
        cases event with
        | stored written value =>
            -- From here on every call on the cell gives the value.
            have gives := rest.gives (sound.step one)
              (one.cell_of_stored sound)
            rw [one.index_eq] at gives
            rw [List.filter_eq_nil_iff.mpr fun event member again => ?_]
            · exact Nat.le_refl 1
            · rw [Bool.and_eq_true, decide_eq_true_eq] at again
              have given := gives event member (again.2.trans stores.2.symm)
              cases event with
              | stored => exact given
              | looked => cases again.1
              | answered => cases again.1
              | began => cases again.1
              | failed => cases again.1
        | looked => cases stores.1
        | answered => cases stores.1
        | began => cases stores.1
        | failed => cases stores.1
      · exact later

end Runs

end State

/-! ## Scripts -/

open State in
/-- What a script can tell of the cell of a handle, whatever calls it makes on
this and other handles and from inside of whatever resolvers. -/
structure Script.Memoizes (script : Script Value Reason)
    (shelf : Shelf Value) (handle : Nat) : Prop where
  ends : ∀ log state, Runs (start shelf script) log state →
    ∃ rest, Runs state rest (ended (script.run shelf))
  /-- A force is refused exactly while a resolver of the cell is running, and
  then nothing but its answer changes. -/
  refused : ∀ log cells called resolver onward stack,
    shelf.index called = shelf.index handle →
    Runs (start shelf script) log
        ⟨cells, .force called resolver onward, stack⟩ →
      ∀ event next,
        Step ⟨cells, .force called resolver onward, stack⟩ event next →
        (event = .answered called (.error .reentered) ↔
          IsRunning ⟨cells, .force called resolver onward, stack⟩ handle) ∧
        (event = .answered called (.error .reentered) →
          next = ⟨cells, onward (.error .reentered), stack⟩)
  once : ∀ log state, Runs (start shelf script) log state →
    (log.filter fun event => event.isStore &&
      decide (shelf.index event.handle = shelf.index handle)).length ≤ 1
  /-- After that no resolver of the cell is run, and every call on any handle of
  the cell gives the value. -/
  kept : ∀ before called value after state,
    shelf.index called = shelf.index handle →
    Runs (start shelf script) (before ++ .stored called value :: after) state →
      ∀ event ∈ after, shelf.index event.handle = shelf.index handle →
        event.Gives value
  failed : ∀ log state called reason next,
    shelf.index called = shelf.index handle →
    Runs (start shelf script) log state →
      Step state (.failed called reason) next →
        next.shelf.cell handle = .unresolved
  idle : ∀ log state, Runs (start shelf script) log state →
    ¬ state.IsRunning handle → state.shelf.cell handle ≠ .resolving

/-- Cells are memoized under any use: from cells of which none is being
resolved, every script of calls finds each of them so. -/
theorem Shelf.Ready.memoizes {shelf : Shelf Value} (ready : shelf.Ready)
    {handle : Nat} (issued : handle < shelf.handles.length)
    (script : Script Value Reason) :
    script.Memoizes shelf handle := by
  have sound : (State.start shelf script).Sound :=
    .of_ready ready (ready.stocked issued)
  constructor
  case ends =>
    intro log state runs
    exact runs.exists_rest
  case refused =>
    intro log cells called resolver onward stack same runs event next step
    have unmoved : cells.index = shelf.index := runs.index_eq
    rw [← unmoved] at same
    have refused := step.refused_iff (runs.sound sound)
    rw [State.IsRunning, same] at refused
    exact refused
  case once =>
    intro log state runs
    exact runs.stores_le_one sound handle
  case kept =>
    intro before called value after state same runs
    rcases runs.exists_middle with ⟨middle, first, second⟩
    cases second with
    | step store rest =>
        have stored := store.cell_of_stored (first.sound sound)
        have gives := rest.gives ((first.sound sound).step store) stored
        rw [store.index_eq, first.index_eq] at gives
        intro event member touches
        exact gives event member (touches.trans same.symm)
  case failed =>
    intro log state called reason next same runs step
    rw [← step.cell_of_failed (runs.sound sound)]
    refine Shelf.cell_congr ?_
    rw [step.index_eq, runs.index_eq]
    exact same.symm
  case idle =>
    intro log state runs unused resolving
    exact unused (((runs.sound sound).busy handle).mp resolving)

/-- Two cells, and two handles onto the first of them. -/
def twoCells : Shelf Int64 :=
  ((Shelf.empty.add .unresolved).add .unresolved).share 0

/-- Forces the first cell.  Its resolver forces the cell again through the
other handle, and the second cell with a resolver that fails after it has tried
the same; it makes nothing of both.  Then the first cell is forced and looked
at through either handle. -/
def nestedForces : Script Int64 String :=
  .force 0
    (.force 2 (.done (.ok 1)) fun _ =>
      .force 1
        (.force 0 (.done (.ok 2)) fun _ => .done (.error "refused")) fun _ =>
          .done (.ok 7)) fun _ =>
    .force 2 (.done (.ok 3)) fun second =>
      .get 0 fun seen => .done <|
        match second, seen with
        | .ok first, some other => .ok (first + other)
        | _, _ => .error "no value"

/-- The forces find each cell memoized. -/
theorem memoizes_nestedForces :
    twoCells.Ready ∧ 2 < twoCells.handles.length ∧
      nestedForces.Memoizes twoCells 2 := by
  have fresh : (Cell.unresolved : Cell Int64) ≠ .resolving := nofun
  have ready : twoCells.Ready :=
    ((Shelf.ready_empty.add fresh).add fresh).share (by decide)
  exact ⟨ready, by decide, ready.memoizes (by decide) nestedForces⟩

example :
    (nestedForces.run twoCells).2.view =
      [.resolved 7, .unresolved, .resolved 7] := by
  decide +kernel

end EntityCatalog.Memo
