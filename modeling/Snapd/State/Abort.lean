import Snapd.State.Change

/-! Aborting the tasks of a change (overlord/state/change.go, task.go). `AbortLanes` aborts the
tasks of the given lanes that are not also in a lane whose other tasks are all live, and
`abortTasks` goes on from each aborted task to the tasks waiting for it and to the other lanes
it is in. Each task is aborted once: a pending one is held, a running one marked aborted, a done
one marked to undo. Each status is set through `Task.SetStatus`, which tells the task's change when
the task moves between ready and unready: `detectChangeReady` marks the change ready once every
other task of it is ready, and panics when a change already ready would become unready. The two
functions call each other on shared tables of aborted lanes and seen tasks, and `abortTasks`
walks a list that grows as it goes; both stop because every step marks a task seen or ends the
walk, and they are modelled with fuel, whose end is the fault `outOfFuel`. -/

namespace Snapd.State

/-- The fields of `Task` that the runner reads, besides those the wait computation reads. -/
structure RunnerTask (τ χ : Type) extends Task τ where
  waitedStatus : Status
  lanes : List Int
  change : χ
  clean : Bool
  /-- `atTime`, with `none` for the zero time. -/
  atTime : Option Int
  deriving DecidableEq, Repr

namespace RunnerTask

variable {τ χ : Type}

/-- `Task.SetStatus`. It panics on `WaitStatus`, which no caller modelled here passes. -/
def setStatus (t : RunnerTask τ χ) (new : Status) : RunnerTask τ χ :=
  -- an aborted task asked to be done stays aborted, to be undone
  if new = .doneStatus ∧ t.status = .abortStatus then t else { t with status := new }

/-- `Task.SetToWait`; `none` is its panic on `DefaultStatus` or `WaitStatus`. -/
def setToWait (t : RunnerTask τ χ) (resultStatus : Status) : Option (RunnerTask τ χ) :=
  if resultStatus = .defaultStatus ∨ resultStatus = .waitStatus then none
  else if t.status = .abortStatus then some t
  else some { t with waitedStatus := resultStatus, status := .waitStatus }

/-- `Task.At`, with `none` for the zero time: a ready task is not scheduled again. -/
def setAtTime (t : RunnerTask τ χ) (w : Option Int) : RunnerTask τ χ :=
  if t.getStatus.ready ∧ w.isSome then t else { t with atTime := w }

/-- `Task.Lanes`: a task that joined no lane is in lane `0`. -/
def getLanes (t : RunnerTask τ χ) : List Int := if t.lanes = [] then [0] else t.lanes

/-- `taskEffectiveStatus`: a task in `WaitStatus` counts with the status it is to go back to. -/
def effectiveStatus (t : RunnerTask τ χ) : Status :=
  if t.getStatus = .waitStatus then t.waitedStatus else t.getStatus

end RunnerTask

/-- The status `abortTasks` moves a task to, by its effective status. -/
def abortedStatus : Status → Option Status
  | .doStatus => some .holdStatus
  | .doingStatus => some .abortStatus
  | .doneStatus => some .undoStatus
  | _ => none

/-- The fields of the changes that `markReady` writes: whether the `Ready` channel is closed, and
`readyTime`, with `none` for the zero time; and `now`, the time `timeNow` gives while an abort
runs. -/
structure ReadyState (χ : Type) where
  closed : χ → Bool
  readyTime : χ → Option Int
  now : Int

/-- `ready'` is `ready` after a `markReady` of `c` at most: the clock and every other change are
as they were, and a ready time only goes from zero to now. -/
structure ReadyState.MarksOnly {χ : Type} (c : χ) (ready ready' : ReadyState χ) : Prop where
  now : ready'.now = ready.now
  closed : ∀ x ≠ c, ready'.closed x = ready.closed x
  readyTime : ∀ x, ready'.readyTime x = ready.readyTime x ∨
    x = c ∧ ready.readyTime x = none ∧ ready'.readyTime x = some ready.now

namespace ReadyState.MarksOnly

variable {χ : Type} {c : χ} {r₁ r₂ r₃ : ReadyState χ}

theorem refl (c : χ) (ready : ReadyState χ) : ready.MarksOnly c ready :=
  ⟨rfl, fun _ _ => rfl, fun _ => .inl rfl⟩

theorem trans (h₁ : r₁.MarksOnly c r₂) (h₂ : r₂.MarksOnly c r₃) : r₁.MarksOnly c r₃ where
  now := h₂.now.trans h₁.now
  closed x hx := (h₂.closed x hx).trans (h₁.closed x hx)
  readyTime x := by
    rcases h₁.readyTime x with h | ⟨hx, hnone, hsome⟩
    · rcases h₂.readyTime x with h' | ⟨hx', hnone', hsome'⟩
      · exact .inl (h'.trans h)
      · exact .inr ⟨hx', h.symm.trans hnone', hsome'.trans (congrArg some h₁.now)⟩
    · rcases h₂.readyTime x with h' | ⟨-, hnone', -⟩
      · exact .inr ⟨hx, hnone, h'.trans hsome⟩
      · rw [hsome] at hnone'
        cases hnone'

theorem readyTime_of_ne (h : r₁.MarksOnly c r₂) {x : χ} (hx : x ≠ c) :
    r₂.readyTime x = r₁.readyTime x :=
  (h.readyTime x).resolve_right fun h' => hx h'.1

end ReadyState.MarksOnly

/-- What an abort changes: the tasks, and the ready state of the changes. -/
structure AbortState (τ χ : Type) where
  tasks : τ → RunnerTask τ χ
  ready : ReadyState χ

/-- How an abort stops without a state: the panic of `detectChangeReady` for a ready change that
would become unready, with the status it would have; the panic of `Change.Status` finding no
status; or running out of fuel. -/
inductive AbortFault (χ : Type) where
  | unready (c : χ) (status : Status)
  | noStatus (c : χ)
  | outOfFuel
  deriving DecidableEq, Repr

variable {τ χ : Type}

/-- A task as `abortTasks` leaves it, by its effective status. -/
def RunnerTask.aborted (t : RunnerTask τ χ) : RunnerTask τ χ :=
  match abortedStatus t.effectiveStatus with
  | some s => t.setStatus s
  | none => t

/-- What an abort does to the tasks: each is left as it is, or only its status changes, to
`HoldStatus`, `AbortStatus` or `UndoStatus`. -/
def AbortsOnly (tasks tasks' : τ → RunnerTask τ χ) : Prop :=
  ∀ u, tasks' u = tasks u ∨ ∃ s, (s = .holdStatus ∨ s = .abortStatus ∨ s = .undoStatus) ∧
    tasks' u = { tasks u with status := s }

/-- An abort leaves each task's change and the tasks it halts. -/
theorem AbortsOnly.change_haltTasks {tasks tasks' : τ → RunnerTask τ χ} (h : AbortsOnly tasks tasks')
    (u : τ) : (tasks' u).change = (tasks u).change ∧ (tasks' u).haltTasks = (tasks u).haltTasks := by
  rcases h u with h | ⟨s, -, h⟩ <;> rw [h] <;> exact ⟨rfl, rfl⟩

theorem AbortsOnly.refl (tasks : τ → RunnerTask τ χ) : AbortsOnly tasks tasks :=
  fun _ => Or.inl rfl

theorem AbortsOnly.trans {t₁ t₂ t₃ : τ → RunnerTask τ χ} (h₁ : AbortsOnly t₁ t₂)
    (h₂ : AbortsOnly t₂ t₃) : AbortsOnly t₁ t₃ := by
  intro u
  rcases h₂ u with h | ⟨s, hs, h⟩
  · rw [h]
    exact h₁ u
  · rcases h₁ u with h' | ⟨s', -, h'⟩
    · exact Or.inr ⟨s, hs, by rw [h, h']⟩
    · exact Or.inr ⟨s, hs, by rw [h, h']⟩

variable [DecidableEq τ]

/-- The lanes of one task that `abortLanes` takes its opinion from, those before its first lane
in `lanes`, and whether it has such a lane. -/
def laneOpinions (lanes : List Int) : List Int → List Int × Bool
  | [] => ([], false)
  | tlane :: rest =>
    if tlane ∈ lanes then ([], true)
    else ((tlane :: (laneOpinions lanes rest).1), (laneOpinions lanes rest).2)

/-- The scan of the change's tasks in `abortLanes`: the tasks in the lanes, and the lanes where
a live task and where a dead one sits outside them (`hasLive`, `hasDead`). -/
def scanLanes (tasks : τ → RunnerTask τ χ) (lanes : List Int) :
    List τ → List τ × List Int × List Int
  | [] => ([], [], [])
  | tid :: rest =>
    let t := tasks tid
    let live := t.effectiveStatus = .doStatus ∨ t.effectiveStatus = .doingStatus ∨
      t.effectiveStatus = .doneStatus
    let ops := laneOpinions lanes t.getLanes
    let r := scanLanes tasks lanes rest
    (if ops.2 then tid :: r.1 else r.1, if live then ops.1 ++ r.2.1 else r.2.1,
      if live then r.2.2 else ops.1 ++ r.2.2)

theorem abortsOnly_update_aborted (tasks : τ → RunnerTask τ χ) (tid : τ) :
    AbortsOnly tasks (Function.update tasks tid (tasks tid).aborted) := by
  intro u
  by_cases hu : u = tid
  · subst hu
    rw [Function.update_self]
    unfold RunnerTask.aborted
    split
    · next s hs =>
      -- `setStatus` leaves an aborted task asked to be done as it is
      unfold RunnerTask.setStatus
      split
      · exact Or.inl rfl
      · refine Or.inr ⟨s, ?_, rfl⟩
        unfold abortedStatus at hs
        split at hs <;> simp_all
    · exact Or.inl rfl
  · exact Or.inl (Function.update_of_ne hu _ _)

variable [DecidableEq χ]

/-- `Change.markReady`: the `Ready` channel of `c` is closed, and a zero ready time set to now. -/
def ReadyState.markReady (ready : ReadyState χ) (c : χ) : ReadyState χ :=
  ⟨Function.update ready.closed c true,
    Function.update ready.readyTime c ((ready.readyTime c).or (some ready.now)), ready.now⟩

/-- `Change.detectChangeReady` for the change `c` after its task `excl` changed: nothing while
another of its tasks is not ready; else `markReady`, but the panic for a change already ready
whose status is not. The status is read when no task of the change is in `WaitStatus`. -/
def detectChangeReady (changes : χ → Change τ) (tasks : τ → RunnerTask τ χ) (ready : ReadyState χ)
    (c : χ) (excl : τ) : Except (AbortFault χ) (ReadyState χ) :=
  if (changes c).taskIDs.any fun tid => tid != excl && !(tasks tid).status.ready then .ok ready
  else if ready.closed c then
    match (changes c).getStatusNoWait fun u => (tasks u).toTask with
    | none => .error (.noStatus c)
    | some s => if s.ready then .ok (ready.markReady c) else .error (.unready c s)
  else .ok (ready.markReady c)

/-- `Task.SetStatus` of task `tid`: its status, and, when it moves between ready and unready,
`detectChangeReady` of its change. -/
def AbortState.setStatus (changes : χ → Change τ) (st : AbortState τ χ) (tid : τ)
    (new : Status) : Except (AbortFault χ) (AbortState τ χ) :=
  let t := st.tasks tid
  let tasks := Function.update st.tasks tid (t.setStatus new)
  if t.status.ready = (t.setStatus new).status.ready then .ok { st with tasks := tasks }
  else (detectChangeReady changes tasks st.ready t.change tid).map fun ready => ⟨tasks, ready⟩

/-- One task aborted by `abortTasks`, by its effective status. -/
def abortTask (changes : χ → Change τ) (st : AbortState τ χ) (tid : τ) :
    Except (AbortFault χ) (AbortState τ χ) :=
  match abortedStatus (st.tasks tid).effectiveStatus with
  | some s => st.setStatus changes tid s
  | none => .ok st

mutual

/-- `Change.abortLanes` over the change's tasks `taskIDs`, with the tables `abortedLanes` and
`seenTasks`. -/
def abortLanes : Nat → (χ → Change τ) → AbortState τ χ → List τ → List Int → List Int →
    List τ → Except (AbortFault χ) (AbortState τ χ)
  | 0, _, _, _, _, _, _ => .error .outOfFuel
  | fuel + 1, changes, st, taskIDs, lanes, abortedLanes, seenTasks =>
    let scan := scanLanes st.tasks lanes taskIDs
    -- a task also in a lane whose tasks outside the kill list are all live is spared
    let toAbort := scan.1.filter fun tid =>
      !((st.tasks tid).getLanes.any fun l => l ∈ scan.2.1 && l ∉ scan.2.2)
    if toAbort = [] then .ok st
    else abortTasks fuel changes st taskIDs toAbort (abortedLanes ++ lanes) seenTasks []

/-- `Change.abortTasks` walking the list `pending`, collecting in `lanes` the lanes to abort
next. -/
def abortTasks : Nat → (χ → Change τ) → AbortState τ χ → List τ → List τ → List Int →
    List τ → List Int → Except (AbortFault χ) (AbortState τ χ)
  | 0, _, _, _, _, _, _, _ => .error .outOfFuel
  | fuel + 1, changes, st, taskIDs, [], abortedLanes, seenTasks, lanes =>
    if lanes = [] then .ok st
    else abortLanes fuel changes st taskIDs lanes abortedLanes seenTasks
  | fuel + 1, changes, st, taskIDs, tid :: rest, abortedLanes, seenTasks, lanes =>
    if tid ∈ seenTasks then abortTasks fuel changes st taskIDs rest abortedLanes seenTasks lanes
    else
      let t := st.tasks tid
      -- every lane not yet aborted brings in all the task's lanes
      let lanes' := lanes ++ (t.getLanes.filter fun l => l ∉ abortedLanes).flatMap fun _ => t.getLanes
      let halted := t.haltTasks.filter fun h => h ∉ tid :: seenTasks
      match abortTask changes st tid with
      | .error e => .error e
      | .ok st' =>
        abortTasks fuel changes st' taskIDs (rest ++ halted) abortedLanes (tid :: seenTasks) lanes'

end

/-- `Change.Abort`: every task of the change, and the tasks waiting for them, are aborted. -/
def changeAbort (fuel : Nat) (changes : χ → Change τ) (st : AbortState τ χ) (c : Change τ) :
    Except (AbortFault χ) (AbortState τ χ) :=
  abortTasks fuel changes st c.taskIDs c.taskIDs [] [] []

/-- `Change.AbortLanes`. -/
def changeAbortLanes (fuel : Nat) (changes : χ → Change τ) (st : AbortState τ χ) (c : Change τ)
    (lanes : List Int) : Except (AbortFault χ) (AbortState τ χ) :=
  abortLanes fuel changes st c.taskIDs lanes [] []

section Steps

variable {changes : χ → Change τ} {st st' : AbortState τ χ} {tid : τ}

theorem detectChangeReady_ne_outOfFuel (changes : χ → Change τ) (tasks : τ → RunnerTask τ χ)
    (ready : ReadyState χ) (c : χ) (excl : τ) :
    detectChangeReady changes tasks ready c excl ≠ .error .outOfFuel := by
  unfold detectChangeReady
  split
  · nofun
  split
  · split
    · nofun
    · split <;> nofun
  · nofun

theorem AbortState.setStatus_tasks {new : Status} (h : st.setStatus changes tid new = .ok st') :
    st'.tasks = Function.update st.tasks tid ((st.tasks tid).setStatus new) := by
  unfold AbortState.setStatus at h
  dsimp only at h
  split at h
  · cases h
    rfl
  · cases hd : detectChangeReady changes (Function.update st.tasks tid ((st.tasks tid).setStatus new))
      st.ready (st.tasks tid).change tid with
    | error e => simp [hd, Except.map] at h
    | ok ready =>
      simp only [hd, Except.map, Except.ok.injEq] at h
      rw [← h]

/-- A task aborted without a panic has the status `abortedStatus` gives it, and no other task
changes. -/
theorem abortTask_tasks (h : abortTask changes st tid = .ok st') :
    st'.tasks = Function.update st.tasks tid (st.tasks tid).aborted := by
  unfold abortTask at h
  split at h
  · next s hs =>
    rw [AbortState.setStatus_tasks h, RunnerTask.aborted, hs]
  · next hs =>
    cases h
    rw [RunnerTask.aborted, hs, Function.update_eq_self]

theorem abortTask_ne_outOfFuel : abortTask changes st tid ≠ .error .outOfFuel := by
  unfold abortTask AbortState.setStatus
  split
  · dsimp only
    split
    · nofun
    · intro h
      cases hd : detectChangeReady changes _ st.ready (st.tasks tid).change tid with
      | error e =>
        rw [hd] at h
        cases h
        exact detectChangeReady_ne_outOfFuel _ _ _ _ _ hd
      | ok ready =>
        rw [hd] at h
        cases h
  · nofun

theorem ReadyState.markReady_marksOnly (ready : ReadyState χ) (c : χ) :
    ready.MarksOnly c (ready.markReady c) where
  now := rfl
  closed _ hx := Function.update_of_ne hx _ _
  readyTime x := by
    by_cases hx : x = c
    · subst hx
      cases h : ready.readyTime x <;> simp [ReadyState.markReady, h]
    · exact .inl (Function.update_of_ne hx _ _)

theorem detectChangeReady_marksOnly {tasks : τ → RunnerTask τ χ} {ready ready' : ReadyState χ}
    {c : χ} {excl : τ} (h : detectChangeReady changes tasks ready c excl = .ok ready') :
    ready.MarksOnly c ready' := by
  unfold detectChangeReady at h
  split at h
  · cases h
    exact .refl c ready
  split at h
  · split at h
    · cases h
    · split at h
      · cases h
        exact ready.markReady_marksOnly c
      · cases h
  · cases h
    exact ready.markReady_marksOnly c

/-- A status set without a panic changes the ready state of the task's change only. -/
theorem AbortState.setStatus_marksOnly {new : Status} (h : st.setStatus changes tid new = .ok st') :
    st.ready.MarksOnly (st.tasks tid).change st'.ready := by
  unfold AbortState.setStatus at h
  dsimp only at h
  split at h
  · cases h
    exact .refl _ _
  · cases hd : detectChangeReady changes (Function.update st.tasks tid ((st.tasks tid).setStatus new))
      st.ready (st.tasks tid).change tid with
    | error e => simp [hd, Except.map] at h
    | ok ready =>
      simp only [hd, Except.map, Except.ok.injEq] at h
      rw [← h]
      exact detectChangeReady_marksOnly hd

theorem abortTask_marksOnly (h : abortTask changes st tid = .ok st') :
    st.ready.MarksOnly (st.tasks tid).change st'.ready := by
  unfold abortTask at h
  split at h
  · exact AbortState.setStatus_marksOnly h
  · cases h
    exact .refl _ _

end Steps

theorem abortsOnly_abort : ∀ fuel : Nat,
    (∀ (changes : χ → Change τ) (st st' : AbortState τ χ) taskIDs lanes abortedLanes seenTasks,
      abortLanes fuel changes st taskIDs lanes abortedLanes seenTasks = .ok st' →
        AbortsOnly st.tasks st'.tasks) ∧
    (∀ (changes : χ → Change τ) (st st' : AbortState τ χ) taskIDs pending abortedLanes seenTasks
        lanes,
      abortTasks fuel changes st taskIDs pending abortedLanes seenTasks lanes = .ok st' →
        AbortsOnly st.tasks st'.tasks)
  | 0 => ⟨fun _ _ _ _ _ _ _ h => by simp [abortLanes] at h,
      fun _ _ _ _ _ _ _ _ h => by simp [abortTasks] at h⟩
  | fuel + 1 => by
    obtain ⟨ihLanes, ihTasks⟩ := abortsOnly_abort fuel
    refine ⟨fun changes st st' taskIDs lanes abortedLanes seenTasks h => ?_,
      fun changes st st' taskIDs pending abortedLanes seenTasks lanes h => ?_⟩
    · simp only [abortLanes] at h
      split at h
      · cases h
        exact AbortsOnly.refl _
      · exact ihTasks _ _ _ _ _ _ _ _ h
    · cases pending with
      | nil =>
        simp only [abortTasks] at h
        split at h
        · cases h
          exact AbortsOnly.refl _
        · exact ihLanes _ _ _ _ _ _ _ h
      | cons tid rest =>
        simp only [abortTasks] at h
        split at h
        · exact ihTasks _ _ _ _ _ _ _ _ h
        · cases ha : abortTask changes st tid with
          | error e =>
            rw [ha] at h
            cases h
          | ok st₁ =>
            rw [ha] at h
            have h₁ := abortTask_tasks ha
            refine (AbortsOnly.trans ?_ (ihTasks _ _ _ _ _ _ _ _ h))
            rw [h₁]
            exact abortsOnly_update_aborted _ _

theorem abortsOnly_changeAbort {fuel : Nat} {changes : χ → Change τ} {st st' : AbortState τ χ}
    {c : Change τ} (h : changeAbort fuel changes st c = .ok st') : AbortsOnly st.tasks st'.tasks :=
  (abortsOnly_abort fuel).2 _ _ _ _ _ _ _ _ h

theorem abortsOnly_changeAbortLanes {fuel : Nat} {changes : χ → Change τ}
    {st st' : AbortState τ χ} {c : Change τ} {lanes : List Int}
    (h : changeAbortLanes fuel changes st c lanes = .ok st') : AbortsOnly st.tasks st'.tasks :=
  (abortsOnly_abort fuel).1 _ _ _ _ _ _ _ h

/-- An end of either function other than running out of fuel stays its end with more fuel: by
induction on the fuel, over the two at once. -/
theorem abort_fuel_succ : ∀ fuel : Nat,
    (∀ (changes : χ → Change τ) (st : AbortState τ χ) taskIDs lanes abortedLanes seenTasks,
      abortLanes fuel changes st taskIDs lanes abortedLanes seenTasks ≠ .error .outOfFuel →
        abortLanes (fuel + 1) changes st taskIDs lanes abortedLanes seenTasks =
          abortLanes fuel changes st taskIDs lanes abortedLanes seenTasks) ∧
    (∀ (changes : χ → Change τ) (st : AbortState τ χ) taskIDs pending abortedLanes seenTasks lanes,
      abortTasks fuel changes st taskIDs pending abortedLanes seenTasks lanes ≠ .error .outOfFuel →
        abortTasks (fuel + 1) changes st taskIDs pending abortedLanes seenTasks lanes =
          abortTasks fuel changes st taskIDs pending abortedLanes seenTasks lanes)
  | 0 => ⟨fun _ _ _ _ _ _ h => absurd rfl h, fun _ _ _ _ _ _ _ h => absurd rfl h⟩
  | fuel + 1 => by
    obtain ⟨ihLanes, ihTasks⟩ := abort_fuel_succ fuel
    refine ⟨fun changes st taskIDs lanes abortedLanes seenTasks h => ?_,
      fun changes st taskIDs pending abortedLanes seenTasks lanes h => ?_⟩
    · simp only [abortLanes] at h ⊢
      split
      · rfl
      · rw [if_neg ‹_›] at h
        exact ihTasks _ _ _ _ _ _ _ h
    · cases pending with
      | nil =>
        simp only [abortTasks] at h ⊢
        split
        · rfl
        · rw [if_neg ‹_›] at h
          exact ihLanes _ _ _ _ _ _ h
      | cons tid rest =>
        simp only [abortTasks] at h ⊢
        split
        · rw [if_pos ‹_›] at h
          exact ihTasks _ _ _ _ _ _ _ h
        · rw [if_neg ‹_›] at h
          cases ha : abortTask changes st tid with
          | error e => rfl
          | ok st₁ =>
            rw [ha] at h
            exact ihTasks _ _ _ _ _ _ _ h

theorem changeAbort_fuel_add {fuel : Nat} {changes : χ → Change τ} {st : AbortState τ χ}
    {c : Change τ} (h : changeAbort fuel changes st c ≠ .error .outOfFuel) (k : Nat) :
    changeAbort (fuel + k) changes st c = changeAbort fuel changes st c := by
  induction k with
  | zero => rfl
  | succ k ih =>
    have h' : changeAbort (fuel + k) changes st c ≠ .error .outOfFuel := by
      rw [ih]
      exact h
    rw [← Nat.add_assoc, ← ih]
    exact (abort_fuel_succ (fuel + k)).2 _ _ _ _ _ _ _ h'

theorem changeAbortLanes_fuel_add {fuel : Nat} {changes : χ → Change τ} {st : AbortState τ χ}
    {c : Change τ} {lanes : List Int}
    (h : changeAbortLanes fuel changes st c lanes ≠ .error .outOfFuel) (k : Nat) :
    changeAbortLanes (fuel + k) changes st c lanes = changeAbortLanes fuel changes st c lanes := by
  induction k with
  | zero => rfl
  | succ k ih =>
    have h' : changeAbortLanes (fuel + k) changes st c lanes ≠ .error .outOfFuel := by
      rw [ih]
      exact h
    rw [← Nat.add_assoc, ← ih]
    exact (abort_fuel_succ (fuel + k)).1 _ _ _ _ _ _ h'

end Snapd.State
