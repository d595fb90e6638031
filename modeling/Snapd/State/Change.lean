import Mathlib.Data.Fintype.Card

/-! The statuses of tasks and changes, and how a change's status is derived from its tasks
(overlord/state/change.go). `isTaskWaiting` is a depth-first search over the tasks a task waits
for, with a table of tasks already seen that is shared by every search `isChangeWaiting` starts:
it memoises each verdict and, for a task whose search is still in progress, answers "not
waiting" to cut a cycle. The table bounds the search, so it is modelled with fuel, the number of
tasks plus one; `Snapd.State.Waiting` shows that this is always enough. -/

namespace Snapd.State

/-- `Status`, the status of a change or a task. -/
inductive Status where
  | defaultStatus | holdStatus | doStatus | doingStatus | doneStatus | abortStatus | undoStatus
  | undoingStatus | undoneStatus | errorStatus | waitStatus
  deriving DecidableEq, Repr

namespace Status

/-- `Ready`: the task or change needs no further work towards its current goal. -/
def ready : Status → Bool
  | doneStatus | undoneStatus | holdStatus | errorStatus => true
  | _ => false

/-- The statuses a waited-on task may have without making a change runnable: the cases of
`isChangeWaiting` that go on to the next task. -/
def settled : Status → Bool
  | waitStatus | doneStatus | undoneStatus | errorStatus | holdStatus => true
  | _ => false

end Status

/-- The fields of `Task` that the wait computation reads: its status as stored, and the tasks
it waits for and the tasks that wait for it. -/
structure Task (τ : Type) where
  status : Status
  waitTasks : List τ
  haltTasks : List τ
  deriving DecidableEq, Repr

/-- `Task.Status`: the stored status, with `DefaultStatus` read as `DoStatus`. -/
def Task.getStatus {τ : Type} (t : Task τ) : Status :=
  if t.status = .defaultStatus then .doStatus else t.status

/-- The fields of `Change` that its status reads: an explicitly set status, and its tasks. -/
structure Change (τ : Type) where
  status : Status
  taskIDs : List τ
  deriving DecidableEq, Repr

/-- `taskWaitComputeStatus`, what the table of `isChangeWaiting` holds for a task. -/
inductive TaskWaitComputeStatus where
  | taskWaitStatusNotComputed | taskWaitStatusComputing | taskWaitStatusNotWaiting
  | taskWaitStatusWaiting
  deriving DecidableEq, Repr

open TaskWaitComputeStatus

/-- The table `visited`; a task missing from the Go map reads as not computed. -/
abbrev Visited (τ : Type) := τ → TaskWaitComputeStatus

variable {τ : Type} [DecidableEq τ] (tasks : τ → Task τ)

/-- The `depscheck` loop of `isTaskWaiting` over the remaining dependencies, given the
recursive call `isTaskWaiting visited wt deps` and the verdict `isWaiting` so far. -/
def depsCheck (isTaskWaiting : Visited τ → τ → List τ → Bool × Visited τ) :
    Visited τ → List τ → Bool → Bool × Visited τ
  | visited, [], isWaiting => (isWaiting, visited)
  | visited, wt :: rest, isWaiting =>
    match (tasks wt).getStatus with
    | .waitStatus => depsCheck isTaskWaiting visited rest true
    | .doneStatus | .undoneStatus | .errorStatus | .holdStatus =>
      depsCheck isTaskWaiting visited rest isWaiting
    | .doStatus =>
      let r := isTaskWaiting visited wt (tasks wt).waitTasks
      -- a runnable dependency ends the search
      if r.1 then depsCheck isTaskWaiting r.2 rest true else (false, r.2)
    | .undoStatus =>
      let r := isTaskWaiting visited wt (tasks wt).haltTasks
      if r.1 then depsCheck isTaskWaiting r.2 rest true else (false, r.2)
    | _ => (false, visited)

/-- `Change.isTaskWaiting`: whether task `t`, with dependencies `deps`, is blocked by tasks in
`WaitStatus`, and the table after the search. -/
def isTaskWaiting : Nat → Visited τ → τ → List τ → Bool × Visited τ
  | 0, visited, _, _ => (false, visited)
  | fuel + 1, visited, t, deps =>
    match visited t with
    -- a cycle: the search for `t` is still in progress
    | taskWaitStatusComputing => (false, visited)
    | taskWaitStatusWaiting => (true, visited)
    | taskWaitStatusNotWaiting => (false, visited)
    | taskWaitStatusNotComputed =>
      let r := depsCheck tasks (isTaskWaiting fuel)
        (Function.update visited t taskWaitStatusComputing) deps false
      (r.1, Function.update r.2 t (if r.1 then taskWaitStatusWaiting else taskWaitStatusNotWaiting))

/-- The loop of `isChangeWaiting` over the change's remaining tasks. -/
def isChangeWaitingLoop (fuel : Nat) : Visited τ → List τ → Bool
  | _, [] => true
  | visited, t :: rest =>
    match (tasks t).getStatus with
    | .waitStatus | .doneStatus | .undoneStatus | .errorStatus | .holdStatus =>
      isChangeWaitingLoop fuel visited rest
    | .doStatus =>
      let r := isTaskWaiting tasks fuel visited t (tasks t).waitTasks
      r.1 && isChangeWaitingLoop fuel r.2 rest
    | .undoStatus =>
      let r := isTaskWaiting tasks fuel visited t (tasks t).haltTasks
      r.1 && isChangeWaitingLoop fuel r.2 rest
    | _ => false

/-- `Change.isChangeWaiting`: every task of the change that still has work to do is blocked by
tasks in `WaitStatus`. -/
def isChangeWaiting [Fintype τ] (c : Change τ) : Bool :=
  isChangeWaitingLoop tasks (Fintype.card τ + 1) (fun _ => taskWaitStatusNotComputed) c.taskIDs

/-- `statusOrder`, the priority in which a change takes the status of one of its tasks. -/
def statusOrder : List Status :=
  [.abortStatus, .undoingStatus, .undoStatus, .doingStatus, .doStatus, .waitStatus,
    .errorStatus, .undoneStatus, .doneStatus, .holdStatus]

/-- `Change.Status`; `none` is the final panic, when no task has a status in `statusOrder`. -/
def Change.getStatus [Fintype τ] (c : Change τ) : Option Status :=
  if c.status ≠ .defaultStatus then some c.status
  else if c.taskIDs = [] then some .holdStatus
  else
    -- `statusStats`: how many of the change's tasks have each status
    let statusStats (s : Status) : Nat := (c.taskIDs.map fun tid => (tasks tid).getStatus).count s
    if 0 < statusStats .waitStatus && isChangeWaiting tasks c then some .waitStatus
    else statusOrder.find? fun s => 0 < statusStats s

/-- `Change.Status` read where no task of the change is in `WaitStatus`, so that its search for
waiting tasks is not reached. -/
def Change.getStatusNoWait (c : Change τ) : Option Status :=
  if c.status ≠ .defaultStatus then some c.status
  else if c.taskIDs = [] then some .holdStatus
  else statusOrder.find? fun s => 0 < (c.taskIDs.map fun tid => (tasks tid).getStatus).count s

theorem Change.getStatus_eq_getStatusNoWait [Fintype τ] {c : Change τ}
    (h : ∀ tid ∈ c.taskIDs, (tasks tid).getStatus ≠ .waitStatus) :
    c.getStatus tasks = c.getStatusNoWait tasks := by
  have hcount : (c.taskIDs.map fun tid => (tasks tid).getStatus).count .waitStatus = 0 :=
    List.count_eq_zero.mpr fun hmem => by
      obtain ⟨tid, htid, hwait⟩ := List.mem_map.mp hmem
      exact h tid htid hwait
  unfold Change.getStatus Change.getStatusNoWait
  simp only [hcount, Nat.lt_irrefl, decide_false, Bool.false_and, Bool.false_eq_true, if_false]

end Snapd.State
