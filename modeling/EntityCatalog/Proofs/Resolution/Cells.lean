import EntityCatalog.Proofs.Memo.Reentrancy
import EntityCatalog.Proofs.Resolution.Requests

/-!
# Findings as shared cells

Every declared property has a cell for its target, and each copy of the property
has a handle onto that cell.  To ask for the target through a copy is to force
the cell, with a resolver that looks the reference up and calls no cells.

A resolution keeps the targets that it finds by the places of the declarations
instead.  They are what the cells hold (`Findings.Shares`): a request through any
copy is answered alike and keeps that (`Findings.Shares.ask`), so that after all
requests of a resolution the cells hold what it has found, and as much was
evaluated (`Resolution.Setting.shares_visitedAt`).  Such cells and copies exist
for every resolution (`Resolution.Setting.exists_requests`).  The items of an enum
are those of a cell as well (`Enumeration.forceWith_evaluate`).
-/

namespace EntityCatalog

/-! ## Resolvers that call no cells -/

namespace Memo

variable {Value Reason : Type} {shelf : Shelf Value} {handle : Nat}

/-- A cell that holds what is known. -/
def Cell.ofOption : Option Value → Cell Value
  | some value => .resolved value
  | none => .unresolved

/-- A cell that has a value gives it. -/
theorem forceWith_of_resolved {value : Value}
    (known : shelf.cell handle = .resolved value)
    (run : Shelf Value → Except Reason Value × Shelf Value) :
    forceWith run handle shelf = (.ok value, shelf) := by
  rw [forceWith, known]

/-- An unresolved cell gives what a resolver gives that calls no cells, and keeps
it if it is a value. -/
theorem forceWith_done (unknown : shelf.cell handle = .unresolved)
    (answer : Except Reason Value) :
    forceWith (Script.done answer).run handle shelf =
      (answer.mapError .failed,
        shelf.set handle (.ofOption answer.toOption)) := by
  have again (cell : Cell Value) :
      (shelf.set handle .resolving).set handle cell = shelf.set handle cell :=
    congrArg (Shelf.mk · shelf.handles) (List.set_set _)
  rw [forceWith, unknown]
  cases answer with
  | ok value => exact congrArg (Prod.mk _) (again _)
  | error reason => exact congrArg (Prod.mk _) (again _)

end Memo

open Memo

/-- The items of an enum are those of a cell that is forced with their
evaluation. -/
theorem Enumeration.forceWith_evaluate {Reason : Type} {part : Enumeration}
    {shelf : Memo.Shelf (List EnumItem)} {handle : Nat}
    (holds : shelf.cell handle = .ofOption part.items) (sources : Sources)
    (tally : Tally) :
    (forceWith (Script.done
        (.ok (part.evaluate sources tally).1 : Except Reason _)).run
      handle shelf).1 = .ok (part.force sources tally).1 := by
  rw [Enumeration.force]
  cases known : part.items with
  | some items =>
      rw [known] at holds
      rw [forceWith_of_resolved holds]
  | none =>
      rw [known] at holds
      rw [forceWith_done holds]
      rfl

/-! ## Targets -/

/-- Cells for targets, and how often each thing was evaluated. -/
structure TargetCells where
  shelf : Memo.Shelf String
  tally : Tally

namespace TargetCells

variable (directory : Directory)

/-- Ask for the target of a property through a copy.  The reference is looked up
only if the cell is unresolved. -/
def ask (cells : TargetCells) (handle : Nat) (reference : EntityRef) :
    Except (Failure Miss) String × TargetCells :=
  let found := directory.lookUp reference cells.tally
  let forced := forceWith (Script.done found.1).run handle cells.shelf
  let known := (cells.shelf.cell handle).isResolved
  (forced.1, ⟨forced.2, if known then cells.tally else found.2⟩)

/-- Do what a request demands, made through a copy of the property. -/
def answer (cells : TargetCells) : Task × Nat → TargetCells
  | (.base _ reference, _) =>
    { cells with tally := (directory.lookUp reference cells.tally).2 }
  | (.target _ reference, handle) => (cells.ask directory handle reference).2
  | (.mapping _ source, _) =>
    { cells with tally := cells.tally.record (.mapping source) }

/-- Do what some requests demand, one after the other. -/
def answerAll (cells : TargetCells) (requests : List (Task × Nat)) :
    TargetCells :=
  requests.foldl (answer directory) cells

end TargetCells

/-! ## The targets that are found -/

/-- The cells hold the targets that were found.  The origin of a handle is the
place where its copy of a property was declared, and handles lead to one cell
exactly if they have one origin. -/
structure Findings.Shares (findings : Findings) (cells : TargetCells)
    (origins : List Place) : Prop where
  counted : cells.shelf.handles.length = origins.length
  aimed : ∀ {handle place}, origins[handle]? = some place →
    cells.shelf.index handle < cells.shelf.cells.length
  shared : ∀ {handle other place asked}, origins[handle]? = some place →
    origins[other]? = some asked →
      (cells.shelf.index handle = cells.shelf.index other ↔ place = asked)
  holds : ∀ {handle place}, origins[handle]? = some place →
    cells.shelf.cell handle = .ofOption (findings.target? place)
  tally : cells.tally = findings.tally

/-- The copy through which a target is asked for is one of the property. -/
def Task.Fits (origins : List Place) (request : Task × Nat) : Prop :=
  ∀ place, request.1.target? = some place → origins[request.2]? = some place

namespace Findings.Shares

variable {findings : Findings} {cells : TargetCells} {origins : List Place}
  {directory : Directory} {handle : Nat} {place : Place}

/-- Writing the cell of a copy is keeping its target. -/
theorem write (shares : findings.Shares cells origins)
    (aims : origins[handle]? = some place) (later : Findings)
    (known : Option String)
    (kept : ∀ asked, later.target? asked =
      if place = asked then known else findings.target? asked) :
    later.Shares ⟨cells.shelf.set handle (.ofOption known), later.tally⟩
      origins where
  counted := shares.counted
  aimed alsoAims := by
    rw [Memo.Shelf.set, List.length_set]
    exact shares.aimed alsoAims
  shared := shares.shared
  holds {other asked} alsoAims := by
    have one := shares.shared alsoAims aims
    rw [Memo.Shelf.cell_set (shares.aimed aims), kept]
    by_cases same : place = asked
    · rw [if_pos (one.mpr same.symm), if_pos same]
    · rw [if_neg (Ne.symm same ∘ one.mp), if_neg same]
      exact shares.holds alsoAims
  tally := rfl

/-- Whatever copy a target is asked for through, its cell gives what the findings
give and holds what they keep. -/
theorem ask (shares : findings.Shares cells origins)
    (aims : origins[handle]? = some place) (reference : EntityRef) :
    (cells.ask directory handle reference).1 =
        (findings.force directory place ⟨reference, none⟩).1.mapError .failed ∧
      (findings.force directory place ⟨reference, none⟩).2.Shares
        (cells.ask directory handle reference).2 origins := by
  have holds := shares.holds aims
  cases known : findings.target? place with
  | some entity =>
      rw [known] at holds
      rw [force_of_target? known, TargetCells.ask, forceWith_of_resolved holds,
        holds]
      exact ⟨rfl, { shares with }⟩
  | none =>
      rw [known] at holds
      rw [TargetCells.ask, forceWith_done holds, holds, shares.tally]
      cases looked : directory.lookUp reference findings.tally with
      | mk answer later =>
          rw [force_of_missing rfl known looked]
          cases answer with
          | ok entity =>
              refine ⟨rfl, shares.write aims _ (some entity) fun asked => ?_⟩
              exact target?_keep ..
          | error miss =>
              refine ⟨rfl, shares.write aims _ none fun asked => ?_⟩
              change findings.target? asked = _
              by_cases same : place = asked
              · rw [if_pos same, ← same, known]
              · rw [if_neg same]

/-- A request keeps the targets in the cells. -/
theorem answer (shares : findings.Shares cells origins)
    (directory : Directory) {request : Task × Nat}
    (fits : Task.Fits origins request) :
    (findings.answer directory request.1).Shares
      (cells.answer directory request) origins := by
  rcases request with ⟨task, handle⟩
  cases task with
  | base entity reference =>
      refine { shares with tally := ?_ }
      rw [TargetCells.answer, shares.tally, Findings.answer]
  | target place reference =>
      exact (shares.ask (fits place rfl) reference).2
  | mapping place source =>
      refine { shares with tally := ?_ }
      rw [TargetCells.answer, shares.tally, Findings.answer]

/-- So do requests made one after the other, through whatever copies. -/
theorem answerAll (shares : findings.Shares cells origins)
    (directory : Directory) {requests : List (Task × Nat)}
    (fit : ∀ request ∈ requests, Task.Fits origins request) :
    (findings.answerAll directory (requests.map Prod.fst)).Shares
      (cells.answerAll directory requests) origins := by
  induction requests generalizing findings cells with
  | nil => exact shares
  | cons request rest induction =>
      exact induction (shares.answer directory (fit request (List.mem_cons_self ..)))
        fun other later => fit other (List.mem_cons_of_mem _ later)

end Findings.Shares

/-! ## Declaring and copying properties -/

namespace Memo.Shelf

variable {Value : Type} {cells others : List (Cell Value)} {handles : List Nat}
  {handle last : Nat}

theorem index_of_lt (before : handle < handles.length) :
    (⟨cells, handles ++ [last]⟩ : Shelf Value).index handle =
      (⟨others, handles⟩ : Shelf Value).index handle := by
  rw [index, index, List.getElem?_append_left before]

theorem index_last :
    (⟨cells, handles ++ [last]⟩ : Shelf Value).index handles.length = last := by
  rw [index, List.getElem?_concat_length, Option.getD_some]

end Memo.Shelf

namespace Findings.Shares

variable {findings : Findings} {cells : TargetCells} {origins : List Place}
  {handle : Nat} {place : Place}

theorem lt_of_aims (shares : findings.Shares cells origins)
    (aims : origins[handle]? = some place) :
    handle < cells.shelf.handles.length := by
  rw [shares.counted]
  exact (List.getElem?_eq_some_iff.mp aims).1

/-- A new handle has the last origin, and no other handle has another one. -/
theorem origin_cases {asked : Place}
    (aims : (origins ++ [place])[handle]? = some asked) :
    origins[handle]? = some asked ∨ handle = origins.length ∧ asked = place := by
  rw [List.getElem?_append] at aims
  split at aims
  · exact .inl aims
  · rename_i late
    rw [List.getElem?_singleton] at aims
    split at aims
    · exact .inr ⟨by omega, (Option.some.inj aims).symm⟩
    · cases aims

/-- Another handle is given out, onto the cell of its origin. -/
theorem extend (shares : findings.Shares cells origins)
    {more : List (Cell String)} {last : Nat}
    (inside : last < (cells.shelf.cells ++ more).length)
    (meets : ∀ {handle asked}, origins[handle]? = some asked →
      (cells.shelf.index handle = last ↔ asked = place))
    (holds : (cells.shelf.cells ++ more)[last]?.getD .unresolved =
      .ofOption (findings.target? place)) :
    findings.Shares
      { cells with shelf :=
          ⟨cells.shelf.cells ++ more, cells.shelf.handles ++ [last]⟩ }
      (origins ++ [place]) := by
  have before {handle : Nat} {asked : Place}
      (aims : origins[handle]? = some asked) :
      (⟨cells.shelf.cells ++ more, cells.shelf.handles ++ [last]⟩ :
        Memo.Shelf String).index handle = cells.shelf.index handle :=
    Memo.Shelf.index_of_lt (shares.lt_of_aims aims)
  have newest : (⟨cells.shelf.cells ++ more, cells.shelf.handles ++ [last]⟩ :
      Memo.Shelf String).index origins.length = last := by
    rw [← shares.counted]
    exact Memo.Shelf.index_last
  constructor
  case counted =>
    rw [List.length_append, List.length_append, shares.counted]
    rfl
  case tally => exact shares.tally
  case aimed =>
    intro handle asked aims
    rcases origin_cases aims with old | ⟨rfl, rfl⟩
    · rw [before old, List.length_append]
      exact Nat.lt_add_right _ (shares.aimed old)
    · rw [newest]
      exact inside
  case shared =>
    intro handle other asked next aims alsoAims
    rcases origin_cases aims with old | ⟨rfl, rfl⟩ <;>
      rcases origin_cases alsoAims with alsoOld | ⟨rfl, rfl⟩
    · rw [before old, before alsoOld]
      exact shares.shared old alsoOld
    · rw [before old, newest]
      exact meets old
    · rw [before alsoOld, newest, eq_comm, meets alsoOld, eq_comm]
    · exact iff_of_true rfl rfl
  case holds =>
    intro handle asked aims
    rw [Memo.Shelf.cell]
    rcases origin_cases aims with old | ⟨rfl, rfl⟩
    · rw [before old, List.getElem?_append_left (shares.aimed old)]
      exact shares.holds old
    · rw [newest]
      exact holds

/-- A property that is declared gets a cell. -/
theorem declare (shares : findings.Shares cells origins)
    (fresh : place ∉ origins) (unknown : findings.target? place = none) :
    findings.Shares { cells with shelf := cells.shelf.add .unresolved }
      (origins ++ [place]) := by
  refine shares.extend ?_ (fun aims => iff_of_false ?_ ?_) ?_
  · simp
  · exact Nat.ne_of_lt (shares.aimed aims)
  · rintro rfl
    exact fresh (List.mem_of_getElem? aims)
  · rw [List.getElem?_concat_length, unknown]
    rfl

/-- A copy of a property gets a handle onto the cell of the property. -/
theorem copy (shares : findings.Shares cells origins)
    (aims : origins[handle]? = some place) :
    findings.Shares { cells with shelf := cells.shelf.share handle }
      (origins ++ [place]) := by
  have extended := @extend findings cells origins place shares []
    (cells.shelf.index handle)
  rw [List.append_nil] at extended
  exact extended (shares.aimed aims) (fun alsoAims => shares.shared alsoAims aims)
    (shares.holds aims)

end Findings.Shares

/-- Before anything is found there are cells for any copies of properties. -/
theorem Findings.exists_shares (tally : Tally) (origins : List Place) :
    ∃ shelf, Shares { tally := tally } ⟨shelf, tally⟩ origins := by
  -- The copies are made in turn, so the induction is on those still to be made.
  have carried_on : ∀ rest made shelf,
      Shares { tally := tally } ⟨shelf, tally⟩ made →
        ∃ shelf, Shares { tally := tally } ⟨shelf, tally⟩ (made ++ rest) := by
    intro rest
    induction rest with
    | nil =>
        intro made shelf shares
        rw [List.append_nil]
        exact ⟨shelf, shares⟩
    | cons place rest induction =>
        intro made shelf shares
        rw [List.append_cons]
        by_cases copied : place ∈ made
        · obtain ⟨handle, aims⟩ := List.mem_iff_getElem?.mp copied
          exact induction _ _ (shares.copy aims)
        · exact induction _ _ (shares.declare copied rfl)
  have none : Shares { tally := tally } ⟨.empty, tally⟩ [] := by
    constructor
    case counted | tally => rfl
    all_goals exact fun aims => nomatch aims
  exact carried_on origins [] .empty none

/-! ## Resolutions -/

/-- Whatever is demanded can be demanded through copies, if every property whose
target it asks for has one. -/
theorem Task.exists_fits {origins : List Place} {tasks : List Task}
    (copied : ∀ task ∈ tasks, ∀ place, task.target? = some place →
      place ∈ origins) :
    ∃ requests : List (Task × Nat), requests.map Prod.fst = tasks ∧
      ∀ request ∈ requests, Task.Fits origins request := by
  induction tasks with
  | nil => exact ⟨[], rfl, nofun⟩
  | cons task rest induction =>
      obtain ⟨requests, made, fit⟩ :=
        induction fun other later => copied other (List.mem_cons_of_mem _ later)
      have fits : ∃ handle, Task.Fits origins (task, handle) := by
        cases asked : task.target? with
        | none => exact ⟨0, fun place same => nomatch asked.symm.trans same⟩
        | some place =>
            obtain ⟨handle, aims⟩ := List.mem_iff_getElem?.mp
              (copied task (List.mem_cons_self ..) place asked)
            refine ⟨handle, fun other same => ?_⟩
            rwa [← Option.some.inj (asked.symm.trans same)]
      obtain ⟨handle, here⟩ := fits
      exact ⟨(task, handle) :: requests, congrArg (task :: ·) made,
        List.forall_mem_cons.mpr ⟨here, fit⟩⟩

/-- For every resolution there are cells, and copies through which its requests
can be made. -/
theorem Resolution.Setting.exists_requests (setting : Setting) (tally : Tally) :
    ∃ (origins : List Place) (shelf : Memo.Shelf String)
      (requests : List (Task × Nat)),
      Findings.Shares { tally := tally } ⟨shelf, tally⟩ origins ∧
        requests.map Prod.fst = setting.requests tally ∧
        ∀ request ∈ requests, Task.Fits origins request := by
  obtain ⟨shelf, unresolved⟩ := Findings.exists_shares tally
    ((setting.requests tally).filterMap Task.target?)
  obtain ⟨requests, made, fit⟩ := Task.exists_fits fun task demanded place asked =>
    List.mem_filterMap.mpr ⟨task, demanded, asked⟩
  exact ⟨_, shelf, requests, unresolved, made, fit⟩

/-- After a resolution the cells hold what it has found, and as much was evaluated
as in the resolution, whatever copies the requests were made through.  On the way
each of them was answered as the resolution was. -/
theorem Resolution.Setting.shares_visitedAt (setting : Setting) (tally : Tally)
    {origins : List Place} {shelf : Memo.Shelf String}
    (unresolved : Findings.Shares { tally := tally } ⟨shelf, tally⟩ origins)
    {requests : List (Task × Nat)}
    (made : requests.map Prod.fst = setting.requests tally)
    (fit : ∀ request ∈ requests, Task.Fits origins request) :
    (setting.visitedAt tally).findings.Shares
        (TargetCells.answerAll setting.directory ⟨shelf, tally⟩ requests)
        origins ∧
      ∀ before place reference handle after,
        requests = before ++ (.target place reference, handle) :: after →
          ((TargetCells.answerAll setting.directory ⟨shelf, tally⟩ before).ask
              setting.directory handle reference).1 =
            ((Findings.answerAll setting.directory { tally := tally }
              (before.map Prod.fst)).force setting.directory place
                ⟨reference, none⟩).1.mapError .failed := by
  constructor
  · rw [findings_visitedAt, ← made]
    exact unresolved.answerAll setting.directory fit
  · rintro before place reference handle after rfl
    have soFar := unresolved.answerAll setting.directory
      fun request earlier => fit request (List.mem_append_left _ earlier)
    have aims := fit (.target place reference, handle) (by simp) place rfl
    exact (soFar.ask aims reference).1

end EntityCatalog
