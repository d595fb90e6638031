import Snapd.State.Abort
import Mathlib.Logic.Relation

/-! The task runner (overlord/state/taskrunner.go). An `Ensure` pass looks at every task under
the runner's and the state's locks, and for each one with no goroutine and nothing to wait for
starts its do or undo handler in a goroutine, with a tomb kept under the task's ID; a goroutine
ends under the same locks, deletes its tomb and moves its task on by the handler's result.
Between passes and completions, other code may abort a change or some of its lanes.

The handlers the runner finds for a task, which kinds have a cleanup, the blocked predicates,
the readiness of a change and the times are read from outside this code, so they are inputs:
the functions `Handlers`, and the arguments of each step. Fuel for the abort functions is an
argument of the steps that abort, so that every abort of the code is one of the model's. -/

namespace Snapd.State

/-- What a goroutine started by the runner runs: a task's do or undo handler, or its cleanup. -/
inductive Job where
  | handler | cleanup
  deriving DecidableEq, Repr

/-- A `TaskRunner` with the state it runs: the tasks and changes, the keys of `tombs`, the
goroutines started with a tomb and not yet ended, and `stopped`. -/
structure Runner (τ χ : Type) where
  tasks : τ → RunnerTask τ χ
  changes : χ → Change τ
  tombs : τ → Bool
  goroutines : List (τ × Job)
  stopped : Bool

/-- `handlerPair`: whether the do and the undo handler found for a task are set. -/
structure HandlerPair where
  doHandler : Bool
  undoHandler : Bool

/-- What the runner looks up: the handler pair of a task (by its kind, or by the first optional
handler matching it) and whether its kind has a cleanup. -/
structure Handlers (τ χ : Type) where
  handlerPair : Runner τ χ → τ → HandlerPair
  hasCleanup : Runner τ χ → τ → Bool

/-- What a handler returns: nil, a `*Retry` with its delay, a `*Wait` with the status to go back
to, or another error. -/
inductive HandlerResult where
  | ok | retry (after : Int) | wait (waitedStatus : Status) | error
  deriving DecidableEq, Repr

variable {τ χ : Type} [DecidableEq τ] [DecidableEq χ]

namespace Runner

def setTask (r : Runner τ χ) (t : τ) (x : RunnerTask τ χ) : Runner τ χ :=
  { r with tasks := Function.update r.tasks t x }

def setStatus (r : Runner τ χ) (t : τ) (s : Status) : Runner τ χ :=
  r.setTask t ((r.tasks t).setStatus s)

end Runner

variable (H : Handlers τ χ)

/-- `TaskRunner.tryUndo`: an aborted task with no undo handler is held, any other task marked to
undo. -/
def tryUndo (r : Runner τ χ) (t : τ) : Runner τ χ :=
  if (r.tasks t).getStatus = .abortStatus ∧ (H.handlerPair r t).undoHandler = false then
    r.setStatus t .holdStatus
  else r.setStatus t .undoStatus

/-- `mustWait`: a task to do waits for a task not done; a task to undo waits for a task waiting
for it that is not ready. -/
def mustWait (r : Runner τ χ) (t : τ) : Bool :=
  match (r.tasks t).getStatus with
  | .doStatus => (r.tasks t).waitTasks.any fun wt => (r.tasks wt).getStatus != .doneStatus
  | .undoStatus => (r.tasks t).haltTasks.any fun ht => !(r.tasks ht).getStatus.ready
  | _ => false

/-- The status `run` moves a task to, and whether it then runs the do handler (or the undo one). -/
def runStatus : Status → Option (Status × Bool)
  | .doStatus | .doingStatus => some (.doingStatus, true)
  | .undoStatus | .undoingStatus => some (.undoingStatus, false)
  | _ => none

/-- `TaskRunner.run`: the task moves to `DoingStatus` or `UndoingStatus` (already there after a
retry), its schedule is cleared and its handler starts in a goroutine with a tomb; `none` is a
panic, on another status or a missing handler. -/
def run (r : Runner τ χ) (t : τ) : Option (Runner τ χ) :=
  match runStatus (r.tasks t).getStatus with
  | none => none
  | some (next, isDo) =>
    let r₁ := r.setStatus t next
    let handlers := H.handlerPair r₁ t
    if (if isDo then handlers.doHandler else handlers.undoHandler) then
      some { r₁ with
        tasks := Function.update r₁.tasks t ((r₁.tasks t).setAtTime none)
        tombs := Function.update r₁.tombs t true
        goroutines := r₁.goroutines ++ [(t, .handler)] }
    else none

/-- `TaskRunner.clean`, once the task's change is ready (`changeReady`): a kind with no cleanup
is marked clean at once, another starts its cleanup in a goroutine with a tomb. -/
def clean (r : Runner τ χ) (t : τ) (changeReady : Bool) : Runner τ χ :=
  if !changeReady then r
  else if !H.hasCleanup r t then r.setTask t { r.tasks t with clean := true }
  else { r with
    tombs := Function.update r.tombs t true
    goroutines := r.goroutines ++ [(t, .cleanup)] }

/-- A task scheduled for later than `now`: `!tWhen.IsZero() && ensureTime.Before(tWhen)`. -/
def RunnerTask.scheduledAfter {τ χ : Type} (t : RunnerTask τ χ) (now : Int) : Bool :=
  match t.atTime with
  | some w => decide (now < w)
  | none => false

/-- The loop body of `Ensure` for a task with no tomb, after an aborted task was given to
`tryUndo`; `handlers` was looked up first. -/
def considerIdle (r : Runner τ χ) (t : τ) (handlers : HandlerPair) (now : Int)
    (blocked changeReady : Bool) : Option (Runner τ χ) :=
  let status := (r.tasks t).getStatus
  if status.ready then some (if !(r.tasks t).clean then clean H r t changeReady else r)
  else if status = .waitStatus then some r
  else if mustWait r t then some r
  -- a task to undo with no undo handler counts as done
  else if status = .undoStatus ∧ handlers.undoHandler = false then
    some (r.setStatus t .doneStatus)
  else if (r.tasks t).scheduledAfter now then some r
  else if blocked then some r
  else run H r t

/-- The loop body of `Ensure` for task `t` at time `now`, with the answers of the blocked
predicates and of the task's change being ready. -/
def consider (r : Runner τ χ) (t : τ) (now : Int) (blocked changeReady : Bool) :
    Option (Runner τ χ) :=
  let handlers := H.handlerPair r t
  if !handlers.doHandler then some r
  -- already being handled: an aborted task's tomb is killed, which changes no state
  else if r.tombs t then some r
  else
    let r₁ := if (r.tasks t).getStatus = .abortStatus then tryUndo H r t else r
    considerIdle H r₁ t handlers now blocked changeReady

/-- The loop of `Ensure` over the tasks, each with the answers `consider` reads. -/
def ensureLoop (now : Int) : Runner τ χ → List (τ × Bool × Bool) → Option (Runner τ χ)
  | r, [] => some r
  | r, (t, blocked, changeReady) :: rest =>
    (consider H r t now blocked changeReady).bind fun r' => ensureLoop now r' rest

/-- `TaskRunner.Ensure`: nothing once stopped, else the loop over the tasks in `order`. -/
def ensure (r : Runner τ χ) (now : Int) (order : List (τ × Bool × Bool)) :
    Option (Runner τ χ) :=
  if r.stopped then some r else ensureLoop H now r order

/-- The end of the goroutine running a handler of task `t`, at time `now`, with `ready` the
changes that are ready: its tomb is deleted, and the task moves on by the handler's result;
`none` is a panic, or the abort of the task's lanes running out of fuel. -/
def handlerDone (r : Runner τ χ) (t : τ) (res : HandlerResult) (now : Int) (fuel : Nat)
    (ready : ReadyState χ) : Option (Runner τ χ) :=
  let r₁ : Runner τ χ := { r with
    tombs := Function.update r.tombs t false
    goroutines := r.goroutines.erase (t, .handler) }
  -- a stopping runner retries errors, which may be cancellations
  let res : HandlerResult := match res with
    | .error => if r₁.stopped then .retry 0 else .error
    | res => res
  let status : Status := (r₁.tasks t).getStatus
  match res with
  | .retry after =>
    if status = .abortStatus then some (tryUndo H r₁ t)
    else if after ≠ 0 then some (r₁.setTask t ((r₁.tasks t).setAtTime (some (now + after))))
    else some r₁
  | .wait waitedStatus =>
    if status = .abortStatus then some (tryUndo H r₁ t)
    else ((r₁.tasks t).setToWait
      (if waitedStatus = .defaultStatus then .doneStatus else waitedStatus)).map (r₁.setTask t)
  | .ok =>
    some (match status with
      | .doingStatus => r₁.setStatus t .doneStatus
      | .abortStatus => r₁.setStatus t .undoStatus
      | .undoingStatus => r₁.setStatus t .undoneStatus
      | _ => r₁)
  | .error =>
    -- `abortLanes` aborts the task's lanes in its change; killing tombs changes no state
    match changeAbortLanes fuel r₁.changes ⟨r₁.tasks, ready⟩ (r₁.changes (r₁.tasks t).change)
        (r₁.tasks t).getLanes with
    | .ok aborted => some ({ r₁ with tasks := aborted.tasks }.setStatus t .errorStatus)
    | .error _ => none

/-- The end of the goroutine running the cleanup of task `t`: its tomb is deleted and, if the
cleanup succeeded, the task is marked clean; `none` is the panic of marking a task clean in a
change that is not ready. -/
def cleanupDone (r : Runner τ χ) (t : τ) (succeeded changeReady : Bool) : Option (Runner τ χ) :=
  let r₁ : Runner τ χ := { r with
    tombs := Function.update r.tombs t false
    goroutines := r.goroutines.erase (t, .cleanup) }
  if !succeeded || (r₁.tasks t).clean then some r₁
  else if changeReady then some (r₁.setTask t { r₁.tasks t with clean := true })
  else none

/-- The runs of the runner: `Ensure` passes, the ends of goroutines, aborts of changes or of
lanes by other code, and `Stop`. -/
inductive Step : Runner τ χ → Runner τ χ → Prop
  | ensurePass {r r' : Runner τ χ} (now : Int) (order : List (τ × Bool × Bool))
      (h : ensure H r now order = some r') : Step r r'
  | handlerEnd {r r' : Runner τ χ} (t : τ) (res : HandlerResult) (now : Int) (fuel : Nat)
      (ready : ReadyState χ) (hlive : (t, Job.handler) ∈ r.goroutines)
      (h : handlerDone H r t res now fuel ready = some r') : Step r r'
  | cleanupEnd {r r' : Runner τ χ} (t : τ) (succeeded changeReady : Bool)
      (hlive : (t, Job.cleanup) ∈ r.goroutines)
      (h : cleanupDone r t succeeded changeReady = some r') : Step r r'
  | abort (r : Runner τ χ) (c : χ) (fuel : Nat) (ready : ReadyState χ) {st : AbortState τ χ}
      (h : changeAbort fuel r.changes ⟨r.tasks, ready⟩ (r.changes c) = .ok st) :
      Step r { r with tasks := st.tasks }
  | abortLanes (r : Runner τ χ) (c : χ) (lanes : List Int) (fuel : Nat) (ready : ReadyState χ)
      {st : AbortState τ χ}
      (h : changeAbortLanes fuel r.changes ⟨r.tasks, ready⟩ (r.changes c) lanes = .ok st) :
      Step r { r with tasks := st.tasks }
  | stop (r : Runner τ χ) : Step r { r with stopped := true }

/-- The same runs with each task an `Ensure` pass looks at as a step of its own. -/
inductive MicroStep : Runner τ χ → Runner τ χ → Prop
  | considerTask {r r' : Runner τ χ} (t : τ) (now : Int) (blocked changeReady : Bool)
      (hstopped : r.stopped = false) (h : consider H r t now blocked changeReady = some r') :
      MicroStep r r'
  | handlerEnd {r r' : Runner τ χ} (t : τ) (res : HandlerResult) (now : Int) (fuel : Nat)
      (ready : ReadyState χ) (hlive : (t, Job.handler) ∈ r.goroutines)
      (h : handlerDone H r t res now fuel ready = some r') : MicroStep r r'
  | cleanupEnd {r r' : Runner τ χ} (t : τ) (succeeded changeReady : Bool)
      (hlive : (t, Job.cleanup) ∈ r.goroutines)
      (h : cleanupDone r t succeeded changeReady = some r') : MicroStep r r'
  | abort (r : Runner τ χ) (c : χ) (fuel : Nat) (ready : ReadyState χ) {st : AbortState τ χ}
      (h : changeAbort fuel r.changes ⟨r.tasks, ready⟩ (r.changes c) = .ok st) :
      MicroStep r { r with tasks := st.tasks }
  | abortLanes (r : Runner τ χ) (c : χ) (lanes : List Int) (fuel : Nat) (ready : ReadyState χ)
      {st : AbortState τ χ}
      (h : changeAbortLanes fuel r.changes ⟨r.tasks, ready⟩ (r.changes c) lanes = .ok st) :
      MicroStep r { r with tasks := st.tasks }
  | stop (r : Runner τ χ) : MicroStep r { r with stopped := true }

end Snapd.State
