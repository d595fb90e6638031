import Snapd.State.TaskRunner

/-! What the runner guarantees on every run. Only `run`, from an `Ensure` pass, moves a task into
`DoingStatus` or `UndoingStatus`, and it does so right after `mustWait` found nothing to wait
for; every other step (the end of a goroutine, an abort, `Stop`) only moves tasks to statuses
where no handler runs. And a goroutine is started only for a task with no tomb, and its tomb is
deleted when it ends, so no task ever has two goroutines. -/

namespace Snapd.State

open Relation

variable {τ χ : Type}

section Frames

/-- A change of the tasks that moves none into `DoingStatus` or `UndoingStatus`. -/
def StartsNone (tasks tasks' : τ → RunnerTask τ χ) : Prop :=
  ∀ u s, (s = .doingStatus ∨ s = .undoingStatus) → (tasks' u).getStatus = s →
    (tasks u).getStatus = s

theorem StartsNone.refl (tasks : τ → RunnerTask τ χ) : StartsNone tasks tasks :=
  fun _ _ _ h => h

theorem StartsNone.trans {t₁ t₂ t₃ : τ → RunnerTask τ χ} (h₁ : StartsNone t₁ t₂)
    (h₂ : StartsNone t₂ t₃) : StartsNone t₁ t₃ :=
  fun u s hs h => h₁ u s hs (h₂ u s hs h)

theorem RunnerTask.getStatus_withStatus (x : RunnerTask τ χ) (s : Status) :
    ({ x with status := s } : RunnerTask τ χ).getStatus =
      if s = .defaultStatus then .doStatus else s := rfl

theorem RunnerTask.getStatus_setStatus_of_calm (x : RunnerTask τ χ) {s s' : Status}
    (hcalm : s ≠ .doingStatus ∧ s ≠ .undoingStatus) (hs' : s' = .doingStatus ∨ s' = .undoingStatus)
    (h : (x.setStatus s).getStatus = s') : x.getStatus = s' := by
  unfold RunnerTask.setStatus at h
  split at h
  · exact h
  · rw [RunnerTask.getStatus_withStatus] at h
    split at h <;> rcases hs' with rfl | rfl <;> simp_all

theorem AbortsOnly.startsNone {tasks tasks' : τ → RunnerTask τ χ} (h : AbortsOnly tasks tasks') :
    StartsNone tasks tasks' := by
  intro u s hs hu
  rcases h u with heq | ⟨s', hs', heq⟩
  · rwa [heq] at hu
  · rw [heq, RunnerTask.getStatus_withStatus] at hu
    rcases hs' with rfl | rfl | rfl <;> rcases hs with rfl | rfl <;> simp at hu

variable [DecidableEq τ]

theorem startsNone_update {tasks : τ → RunnerTask τ χ} {t : τ} {x : RunnerTask τ χ}
    (h : ∀ s, (s = .doingStatus ∨ s = .undoingStatus) → x.getStatus = s →
      (tasks t).getStatus = s) :
    StartsNone tasks (Function.update tasks t x) := by
  intro u s hs hu
  by_cases hut : u = t
  · subst hut
    rw [Function.update_self] at hu
    exact h s hs hu
  · rwa [Function.update_of_ne hut] at hu

theorem Runner.startsNone_setStatus (r : Runner τ χ) (t : τ) {s : Status}
    (hcalm : s ≠ .doingStatus ∧ s ≠ .undoingStatus) :
    StartsNone r.tasks (r.setStatus t s).tasks :=
  startsNone_update fun _ hs' h => (r.tasks t).getStatus_setStatus_of_calm hcalm hs' h

@[simp] theorem Runner.setTask_tombs (r : Runner τ χ) (t : τ) (x : RunnerTask τ χ) :
    (r.setTask t x).tombs = r.tombs := rfl

@[simp] theorem Runner.setTask_goroutines (r : Runner τ χ) (t : τ) (x : RunnerTask τ χ) :
    (r.setTask t x).goroutines = r.goroutines := rfl

@[simp] theorem Runner.setTask_stopped (r : Runner τ χ) (t : τ) (x : RunnerTask τ χ) :
    (r.setTask t x).stopped = r.stopped := rfl

theorem Runner.setTask_tasks_of_ne (r : Runner τ χ) {t v : τ} (x : RunnerTask τ χ) (h : v ≠ t) :
    (r.setTask t x).tasks v = r.tasks v :=
  Function.update_of_ne h _ _

@[simp] theorem Runner.setStatus_tombs (r : Runner τ χ) (t : τ) (s : Status) :
    (r.setStatus t s).tombs = r.tombs := rfl

@[simp] theorem Runner.setStatus_goroutines (r : Runner τ χ) (t : τ) (s : Status) :
    (r.setStatus t s).goroutines = r.goroutines := rfl

@[simp] theorem Runner.setStatus_stopped (r : Runner τ χ) (t : τ) (s : Status) :
    (r.setStatus t s).stopped = r.stopped := rfl

end Frames

variable [DecidableEq τ] (H : Handlers τ χ)

section TryUndo

variable {H}

theorem tryUndo_eq (r : Runner τ χ) (t : τ) :
    tryUndo H r t = r.setStatus t .holdStatus ∨ tryUndo H r t = r.setStatus t .undoStatus := by
  unfold tryUndo
  split
  · exact Or.inl rfl
  · exact Or.inr rfl

theorem startsNone_tryUndo (r : Runner τ χ) (t : τ) : StartsNone r.tasks (tryUndo H r t).tasks := by
  rcases tryUndo_eq r t with h | h <;> rw [h] <;> exact r.startsNone_setStatus t (by decide)

@[simp] theorem tryUndo_tombs (r : Runner τ χ) (t : τ) : (tryUndo H r t).tombs = r.tombs := by
  rcases tryUndo_eq r t with h | h <;> rw [h] <;> rfl

@[simp] theorem tryUndo_goroutines (r : Runner τ χ) (t : τ) :
    (tryUndo H r t).goroutines = r.goroutines := by
  rcases tryUndo_eq r t with h | h <;> rw [h] <;> rfl

@[simp] theorem tryUndo_stopped (r : Runner τ χ) (t : τ) : (tryUndo H r t).stopped = r.stopped := by
  rcases tryUndo_eq r t with h | h <;> rw [h] <;> rfl

theorem tryUndo_tasks_of_ne (r : Runner τ χ) {t v : τ} (h : v ≠ t) :
    (tryUndo H r t).tasks v = r.tasks v := by
  rcases tryUndo_eq r t with he | he <;> rw [he] <;> exact r.setTask_tasks_of_ne _ h

theorem tryUndo_getStatus (r : Runner τ χ) (t : τ) :
    (tryUndo H r t).tasks t = (r.tasks t).setStatus .holdStatus ∨
      (tryUndo H r t).tasks t = (r.tasks t).setStatus .undoStatus := by
  rcases tryUndo_eq r t with h | h <;> rw [h]
  · exact Or.inl (Function.update_self _ _ _)
  · exact Or.inr (Function.update_self _ _ _)

end TryUndo

section Consider

variable {H}

omit [DecidableEq τ] in
theorem mustWait_eq_false_of_doStatus {r : Runner τ χ} {t : τ}
    (hs : (r.tasks t).getStatus = .doStatus) (hw : mustWait r t = false) :
    ∀ wt ∈ (r.tasks t).waitTasks, (r.tasks wt).getStatus = .doneStatus := by
  simpa [mustWait, hs] using hw

omit [DecidableEq τ] in
theorem mustWait_eq_false_of_undoStatus {r : Runner τ χ} {t : τ}
    (hs : (r.tasks t).getStatus = .undoStatus) (hw : mustWait r t = false) :
    ∀ ht ∈ (r.tasks t).haltTasks, (r.tasks ht).getStatus.ready = true := by
  simpa [mustWait, hs] using hw

theorem runStatus_eq_some {s next : Status} {isDo : Bool} (h : runStatus s = some (next, isDo)) :
    (s = .doStatus ∨ s = .doingStatus) ∧ next = .doingStatus ∨
      (s = .undoStatus ∨ s = .undoingStatus) ∧ next = .undoingStatus := by
  cases s <;> simp [runStatus] at h <;> simp [h]

theorem run_eq_some {r r' : Runner τ χ} {t : τ} (h : run H r t = some r') :
    ∃ next isDo, runStatus (r.tasks t).getStatus = some (next, isDo) ∧
      (∀ v, v ≠ t → r'.tasks v = r.tasks v) ∧ (r'.tasks t).getStatus = next ∧
      r'.tombs = Function.update r.tombs t true ∧ r'.goroutines = r.goroutines ++ [(t, .handler)] ∧
      r'.stopped = r.stopped := by
  unfold run at h
  split at h
  · simp at h
  · next next isDo hrun =>
    simp only [Option.ite_none_right_eq_some] at h
    obtain ⟨-, h⟩ := h
    obtain rfl := Option.some.inj h
    refine ⟨next, isDo, hrun, fun v hv => ?_, ?_, rfl, rfl, rfl⟩
    · simp only [Function.update_of_ne hv]
      exact r.setTask_tasks_of_ne _ hv
    · -- `runStatus` only gives running statuses, which `setStatus` sets
      have hnext := runStatus_eq_some hrun
      simp only [Function.update_self, Runner.setStatus, Runner.setTask, RunnerTask.setAtTime,
        RunnerTask.setStatus]
      rcases hnext with ⟨-, rfl⟩ | ⟨-, rfl⟩ <;> split <;> simp_all [Task.getStatus]

theorem clean_cases (r : Runner τ χ) (t : τ) (changeReady : Bool) :
    StartsNone r.tasks (clean H r t changeReady).tasks ∧
      (∀ v, v ≠ t → (clean H r t changeReady).tasks v = r.tasks v) ∧
      (clean H r t changeReady).stopped = r.stopped ∧
      ((clean H r t changeReady).tombs = r.tombs ∧
        (clean H r t changeReady).goroutines = r.goroutines ∨
      (clean H r t changeReady).tombs = Function.update r.tombs t true ∧
        (clean H r t changeReady).goroutines = r.goroutines ++ [(t, .cleanup)]) := by
  unfold clean
  split
  · exact ⟨StartsNone.refl _, fun _ _ => rfl, rfl, Or.inl ⟨rfl, rfl⟩⟩
  · split
    · refine ⟨startsNone_update fun _ _ h => h, fun v hv => r.setTask_tasks_of_ne _ hv, rfl,
        Or.inl ⟨rfl, rfl⟩⟩
    · exact ⟨StartsNone.refl _, fun _ _ => rfl, rfl, Or.inr ⟨rfl, rfl⟩⟩

/-- What `Ensure` does to a task with no tomb: leaves it, cleans it, counts an undo as done, or
runs it, once it waits for nothing. -/
theorem considerIdle_cases {r r' : Runner τ χ} {t : τ} {handlers : HandlerPair} {now : Int}
    {blocked changeReady : Bool} (h : considerIdle H r t handlers now blocked changeReady = some r') :
    r' = r ∨ r' = clean H r t changeReady ∨ r' = r.setStatus t .doneStatus ∨
      (mustWait r t = false ∧ run H r t = some r') := by
  unfold considerIdle at h
  simp only at h
  by_cases hready : (r.tasks t).getStatus.ready = true
  · rw [if_pos hready] at h
    obtain rfl := Option.some.inj h.symm
    by_cases hclean : (!(r.tasks t).clean) = true
    · rw [if_pos hclean]
      exact Or.inr (Or.inl rfl)
    · rw [if_neg hclean]
      exact Or.inl rfl
  rw [if_neg hready] at h
  by_cases hwait : (r.tasks t).getStatus = .waitStatus
  · rw [if_pos hwait] at h
    exact Or.inl (Option.some.inj h.symm)
  rw [if_neg hwait] at h
  by_cases hmust : mustWait r t = true
  · rw [if_pos hmust] at h
    exact Or.inl (Option.some.inj h.symm)
  rw [if_neg hmust] at h
  by_cases hundo : (r.tasks t).getStatus = .undoStatus ∧ handlers.undoHandler = false
  · rw [if_pos hundo] at h
    exact Or.inr (Or.inr (Or.inl (Option.some.inj h.symm)))
  rw [if_neg hundo] at h
  by_cases hlater : (r.tasks t).scheduledAfter now = true
  · rw [if_pos hlater] at h
    exact Or.inl (Option.some.inj h.symm)
  rw [if_neg hlater] at h
  by_cases hblocked : blocked = true
  · rw [if_pos hblocked] at h
    exact Or.inl (Option.some.inj h.symm)
  rw [if_neg hblocked] at h
  exact Or.inr (Or.inr (Or.inr ⟨by simpa using hmust, h⟩))

/-- The only way one task of an `Ensure` pass moves a task into a running status: it is that
task, it had no tomb, and, after `tryUndo` if it was aborted, it was to do or to undo, waited for
nothing, and was run. -/
theorem consider_starts {r r' : Runner τ χ} {t u : τ} {now : Int} {blocked changeReady : Bool}
    {s : Status} (h : consider H r t now blocked changeReady = some r')
    (hs : s = .doingStatus ∨ s = .undoingStatus) (hu : (r'.tasks u).getStatus = s)
    (hne : (r.tasks u).getStatus ≠ s) :
    u = t ∧ ∃ r₁ : Runner τ χ, (∀ v, v ≠ t → r₁.tasks v = r.tasks v) ∧
      (r₁.tasks t).waitTasks = (r.tasks t).waitTasks ∧
      (r₁.tasks t).haltTasks = (r.tasks t).haltTasks ∧ mustWait r₁ t = false ∧
      ((r₁.tasks t).getStatus = .doStatus ∧ s = .doingStatus ∨
        (r₁.tasks t).getStatus = .undoStatus ∧ s = .undoingStatus) := by
  unfold consider at h
  dsimp only at h
  split at h
  · exact absurd (by rw [Option.some.inj h]; exact hu) hne
  split at h
  · exact absurd (by rw [Option.some.inj h]; exact hu) hne
  -- the task, given to `tryUndo` if it was aborted
  set r₁ := if (r.tasks t).getStatus = .abortStatus then tryUndo H r t else r with hr₁
  have hcalm₁ : StartsNone r.tasks r₁.tasks := by
    rw [hr₁]
    split
    · exact startsNone_tryUndo r t
    · exact StartsNone.refl _
  have hframe₁ : ∀ v, v ≠ t → r₁.tasks v = r.tasks v := by
    intro v hv
    rw [hr₁]
    split
    · exact tryUndo_tasks_of_ne r hv
    · rfl
  have hlists₁ : (r₁.tasks t).waitTasks = (r.tasks t).waitTasks ∧
      (r₁.tasks t).haltTasks = (r.tasks t).haltTasks := by
    rw [hr₁]
    split
    · rcases tryUndo_getStatus (H := H) r t with h' | h' <;> rw [h'] <;>
        unfold RunnerTask.setStatus <;> split <;> exact ⟨rfl, rfl⟩
    · exact ⟨rfl, rfl⟩
  have hnot (h' : StartsNone r₁.tasks r'.tasks) : False := hne (hcalm₁ u s hs (h' u s hs hu))
  rcases considerIdle_cases h with rfl | rfl | rfl | ⟨hwait, hrun⟩
  · exact (hnot (StartsNone.refl _)).elim
  · exact (hnot (clean_cases r₁ t changeReady).1).elim
  · exact (hnot (r₁.startsNone_setStatus t (by decide))).elim
  · obtain ⟨next, isDo, hstatus, hframe, hnext, -⟩ := run_eq_some hrun
    have hut : u = t := by
      by_contra hut
      exact hnot fun v s' _ hv => by
        by_cases hvt : v = t
        · subst hvt
          exact absurd (hframe u hut ▸ hu) fun h => hne (hframe₁ u hut ▸ h)
        · rwa [hframe v hvt] at hv
    subst hut
    refine ⟨rfl, r₁, hframe₁, hlists₁.1, hlists₁.2, hwait, ?_⟩
    rw [hnext] at hu
    subst hu
    rcases runStatus_eq_some hstatus with ⟨hdo | hdoing, rfl⟩ | ⟨hundo | hundoing, rfl⟩
    · exact Or.inl ⟨hdo, rfl⟩
    · exact absurd (hcalm₁ u _ hs hdoing) hne
    · exact Or.inr ⟨hundo, rfl⟩
    · exact absurd (hcalm₁ u _ hs hundoing) hne

end Consider

section Completion

variable {H}

/-- A step that starts no handler and touches neither tombs nor goroutines. -/
structure Calm (r r' : Runner τ χ) : Prop where
  tasks : StartsNone r.tasks r'.tasks
  tombs : r'.tombs = r.tombs
  goroutines : r'.goroutines = r.goroutines
  stopped : r'.stopped = r.stopped

omit [DecidableEq τ] in
theorem Calm.refl (r : Runner τ χ) : Calm r r := ⟨StartsNone.refl _, rfl, rfl, rfl⟩

omit [DecidableEq τ] in
theorem Calm.trans {r₁ r₂ r₃ : Runner τ χ} (h₁ : Calm r₁ r₂) (h₂ : Calm r₂ r₃) : Calm r₁ r₃ :=
  ⟨h₁.tasks.trans h₂.tasks, h₂.tombs.trans h₁.tombs, h₂.goroutines.trans h₁.goroutines,
    h₂.stopped.trans h₁.stopped⟩

theorem calm_setTask (r : Runner τ χ) (t : τ) (x : RunnerTask τ χ)
    (h : ∀ s, (s = .doingStatus ∨ s = .undoingStatus) → x.getStatus = s →
      (r.tasks t).getStatus = s) : Calm r (r.setTask t x) :=
  ⟨startsNone_update h, rfl, rfl, rfl⟩

theorem calm_setStatus (r : Runner τ χ) (t : τ) (s : Status)
    (hcalm : s ≠ .doingStatus ∧ s ≠ .undoingStatus) : Calm r (r.setStatus t s) :=
  ⟨r.startsNone_setStatus t hcalm, rfl, rfl, rfl⟩

theorem calm_tryUndo (r : Runner τ χ) (t : τ) : Calm r (tryUndo H r t) :=
  ⟨startsNone_tryUndo r t, tryUndo_tombs r t, tryUndo_goroutines r t, tryUndo_stopped r t⟩

omit [DecidableEq τ] in
theorem calm_abort {r : Runner τ χ} {tasks' : τ → RunnerTask τ χ}
    (h : AbortsOnly r.tasks tasks') : Calm r { r with tasks := tasks' } :=
  ⟨h.startsNone, rfl, rfl, rfl⟩

omit [DecidableEq τ] in
theorem RunnerTask.getStatus_setAtTime (x : RunnerTask τ χ) (w : Option Int) :
    (x.setAtTime w).getStatus = x.getStatus := by
  unfold RunnerTask.setAtTime
  split <;> rfl

omit [DecidableEq τ] in
theorem RunnerTask.getStatus_setToWait {x y : RunnerTask τ χ} {ws : Status}
    (h : x.setToWait ws = some y) : y.getStatus = .waitStatus ∨ y = x := by
  unfold RunnerTask.setToWait at h
  split at h
  · simp at h
  split at h
  · exact Or.inr (Option.some.inj h).symm
  · obtain rfl := Option.some.inj h
    exact Or.inl rfl

variable [DecidableEq χ]

theorem handlerDone_eq_some {r r' : Runner τ χ} {t : τ} {res : HandlerResult} {now : Int}
    {fuel : Nat} {ready : ReadyState χ} (h : handlerDone H r t res now fuel ready = some r') :
    StartsNone r.tasks r'.tasks ∧ r'.tombs = Function.update r.tombs t false ∧
      r'.goroutines = r.goroutines.erase (t, .handler) := by
  unfold handlerDone at h
  set r₁ : Runner τ χ := { r with
    tombs := Function.update r.tombs t false
    goroutines := r.goroutines.erase (t, .handler) } with hr₁
  -- the retry branch, also taken by an error once the runner is stopped
  have hretry (after : Int) (h' : (if (r₁.tasks t).getStatus = .abortStatus then
      some (tryUndo H r₁ t) else if after ≠ 0 then
      some (r₁.setTask t ((r₁.tasks t).setAtTime (some (now + after)))) else some r₁) = some r') :
      Calm r₁ r' := by
    split_ifs at h' with habort hafter
    · exact Option.some.inj h' ▸ calm_tryUndo r₁ t
    · refine Option.some.inj h' ▸ calm_setTask r₁ t _ fun s _ hs => ?_
      rwa [RunnerTask.getStatus_setAtTime] at hs
    · exact Option.some.inj h' ▸ Calm.refl r₁
  have hcalm : Calm r₁ r' := by
    cases res with
    | retry after => exact hretry after h
    | wait waitedStatus =>
      simp only at h
      by_cases habort : (r₁.tasks t).getStatus = .abortStatus
      · rw [if_pos habort] at h
        exact Option.some.inj h ▸ calm_tryUndo r₁ t
      · rw [if_neg habort] at h
        obtain ⟨y, hy, rfl⟩ := Option.map_eq_some_iff.mp h
        refine calm_setTask r₁ t y fun s hs hys => ?_
        rcases RunnerTask.getStatus_setToWait hy with hw | rfl
        · rcases hs with rfl | rfl <;> simp [hw] at hys
        · exact hys
    | ok =>
      simp only at h
      obtain rfl := Option.some.inj h.symm
      split
      · exact calm_setStatus r₁ t .doneStatus (by decide)
      · exact calm_setStatus r₁ t .undoStatus (by decide)
      · exact calm_setStatus r₁ t .undoneStatus (by decide)
      · exact Calm.refl r₁
    | error =>
      simp only at h
      by_cases hstop : r₁.stopped = true
      · rw [if_pos hstop] at h
        exact hretry 0 h
      · rw [if_neg hstop] at h
        cases habort : changeAbortLanes fuel r₁.changes ⟨r₁.tasks, ready⟩
            (r₁.changes (r₁.tasks t).change) (r₁.tasks t).getLanes with
        | error e =>
          rw [habort] at h
          cases h
        | ok aborted =>
          rw [habort] at h
          obtain rfl := Option.some.inj h.symm
          exact (calm_abort (r := r₁) (abortsOnly_changeAbortLanes habort)).trans
            (calm_setStatus _ t .errorStatus (by decide))
  exact ⟨hcalm.tasks, hcalm.tombs, hcalm.goroutines⟩

omit [DecidableEq χ] in
theorem cleanupDone_eq_some {r r' : Runner τ χ} {t : τ} {succeeded changeReady : Bool}
    (h : cleanupDone r t succeeded changeReady = some r') :
    StartsNone r.tasks r'.tasks ∧ r'.tombs = Function.update r.tombs t false ∧
      r'.goroutines = r.goroutines.erase (t, .cleanup) := by
  unfold cleanupDone at h
  dsimp only at h
  split_ifs at h
  · obtain rfl := Option.some.inj h
    exact ⟨StartsNone.refl _, rfl, rfl⟩
  · obtain rfl := Option.some.inj h
    exact ⟨startsNone_update fun _ _ h => h, rfl, rfl⟩

end Completion

section Steps

variable {H} [DecidableEq χ]

/-- Every step that moves a task into `DoingStatus` or `UndoingStatus` is the `Ensure` step of
that task, which found it to do or to undo and waiting for nothing. -/
theorem MicroStep.starts {r r' : Runner τ χ} (h : MicroStep H r r') {u : τ} {s : Status}
    (hs : s = .doingStatus ∨ s = .undoingStatus) (hu : (r'.tasks u).getStatus = s)
    (hne : (r.tasks u).getStatus ≠ s) :
    ∃ r₁ : Runner τ χ, (∀ v, v ≠ u → r₁.tasks v = r.tasks v) ∧
      (r₁.tasks u).waitTasks = (r.tasks u).waitTasks ∧
      (r₁.tasks u).haltTasks = (r.tasks u).haltTasks ∧ mustWait r₁ u = false ∧
      ((r₁.tasks u).getStatus = .doStatus ∧ s = .doingStatus ∨
        (r₁.tasks u).getStatus = .undoStatus ∧ s = .undoingStatus) := by
  cases h with
  | considerTask t now blocked changeReady _ h =>
    obtain ⟨rfl, hstart⟩ := consider_starts h hs hu hne
    exact hstart
  | handlerEnd t res now fuel ready _ h =>
    exact absurd ((handlerDone_eq_some h).1 u s hs hu) hne
  | cleanupEnd t succeeded changeReady _ h =>
    exact absurd ((cleanupDone_eq_some h).1 u s hs hu) hne
  | abort c fuel ready h => exact absurd ((abortsOnly_changeAbort h).startsNone u s hs hu) hne
  | abortLanes c lanes fuel ready h =>
    exact absurd ((abortsOnly_changeAbortLanes h).startsNone u s hs hu) hne
  | stop => exact absurd hu hne

theorem MicroStep.doing_waits_done {r r' : Runner τ χ} (h : MicroStep H r r') {u : τ}
    (hu : (r'.tasks u).getStatus = .doingStatus) (hne : (r.tasks u).getStatus ≠ .doingStatus) :
    ∀ t ∈ (r.tasks u).waitTasks, (r.tasks t).getStatus = .doneStatus := by
  obtain ⟨r₁, hframe, hwait, -, hmust, hstatus⟩ := h.starts (Or.inl rfl) hu hne
  have hdo : (r₁.tasks u).getStatus = .doStatus := by
    rcases hstatus with ⟨hdo, -⟩ | ⟨-, h'⟩
    · exact hdo
    · simp at h'
  intro t ht
  have hdone := mustWait_eq_false_of_doStatus hdo hmust t (hwait ▸ ht)
  -- the task itself is to do, not done, so it is not among the tasks it waits for
  have htu : t ≠ u := by
    rintro rfl
    rw [hdo] at hdone
    simp at hdone
  rwa [hframe t htu] at hdone

theorem MicroStep.undoing_halts_ready {r r' : Runner τ χ} (h : MicroStep H r r') {t : τ}
    (ht : (r'.tasks t).getStatus = .undoingStatus) (hne : (r.tasks t).getStatus ≠ .undoingStatus) :
    ∀ u ∈ (r.tasks t).haltTasks, (r.tasks u).getStatus.ready = true := by
  obtain ⟨r₁, hframe, -, hhalt, hmust, hstatus⟩ := h.starts (Or.inr rfl) ht hne
  have hundo : (r₁.tasks t).getStatus = .undoStatus := by
    rcases hstatus with ⟨-, h'⟩ | ⟨hundo, -⟩
    · simp at h'
    · exact hundo
  intro u hu
  have hready := mustWait_eq_false_of_undoStatus hundo hmust u (hhalt ▸ hu)
  have hut : u ≠ t := by
    rintro rfl
    rw [hundo] at hready
    simp [Status.ready] at hready
  rwa [hframe u hut] at hready

end Steps

section Tombs

/-- The tombs are the goroutines: each task with a tomb has exactly one goroutine, and no task
without one has any. -/
structure TombsMatch (r : Runner τ χ) : Prop where
  nodup : (r.goroutines.map Prod.fst).Nodup
  tombs : ∀ t, r.tombs t = true ↔ t ∈ r.goroutines.map Prod.fst

omit [DecidableEq τ] in
theorem TombsMatch.congr {r r' : Runner τ χ} (h : TombsMatch r) (htombs : r'.tombs = r.tombs)
    (hgoroutines : r'.goroutines = r.goroutines) : TombsMatch r' := by
  obtain ⟨hnodup, hmatch⟩ := h
  refine ⟨by rw [hgoroutines]; exact hnodup, fun t => ?_⟩
  rw [htombs, hgoroutines]
  exact hmatch t

theorem TombsMatch.start {r r' : Runner τ χ} (h : TombsMatch r) {t : τ} (ht : r.tombs t = false)
    (j : Job) (htombs : r'.tombs = Function.update r.tombs t true)
    (hgoroutines : r'.goroutines = r.goroutines ++ [(t, j)]) : TombsMatch r' := by
  have hnew : t ∉ r.goroutines.map Prod.fst := fun hm => by simp [(h.tombs t).mpr hm] at ht
  constructor
  · rw [hgoroutines, List.map_append, List.nodup_append]
    refine ⟨h.nodup, List.nodup_singleton _, ?_⟩
    intro a ha b hb
    simp only [List.map_cons, List.map_nil, List.mem_singleton] at hb
    intro hab
    exact hnew (by rw [← hb, ← hab]; exact ha)
  · intro v
    rw [htombs, hgoroutines]
    by_cases hvt : v = t
    · subst hvt
      simp
    · simp [h.tombs v, hvt]

theorem TombsMatch.finish {r r' : Runner τ χ} (h : TombsMatch r) {t : τ} {j : Job}
    (hlive : (t, j) ∈ r.goroutines) (htombs : r'.tombs = Function.update r.tombs t false)
    (hgoroutines : r'.goroutines = r.goroutines.erase (t, j)) : TombsMatch r' := by
  obtain ⟨l₁, l₂, -, hsplit, herase⟩ := List.exists_erase_eq hlive
  have hnodup := h.nodup
  rw [hsplit] at hnodup
  simp only [List.map_append, List.map_cons, List.nodup_append, List.nodup_cons] at hnodup
  obtain ⟨hn₁, ⟨ht₂, hn₂⟩, hdisj⟩ := hnodup
  have ht₁ : t ∉ l₁.map Prod.fst := fun hm => hdisj t hm t List.mem_cons_self rfl
  constructor
  · rw [hgoroutines, herase, List.map_append, List.nodup_append]
    exact ⟨hn₁, hn₂, fun a ha b hb => hdisj a ha b (List.mem_cons_of_mem _ hb)⟩
  · intro v
    rw [htombs, hgoroutines, herase]
    by_cases hvt : v = t
    · subst hvt
      simp only [Function.update_self, Bool.false_eq_true, false_iff, List.map_append,
        List.mem_append, not_or]
      exact ⟨ht₁, ht₂⟩
    · rw [Function.update_of_ne hvt, h.tombs v, hsplit]
      simp [hvt]

variable {H}

theorem consider_tombsMatch {r r' : Runner τ χ} {t : τ} {now : Int} {blocked changeReady : Bool}
    (h : consider H r t now blocked changeReady = some r') (hm : TombsMatch r) : TombsMatch r' := by
  unfold consider at h
  dsimp only at h
  split at h
  · obtain rfl := Option.some.inj h
    exact hm
  split at h
  · obtain rfl := Option.some.inj h
    exact hm
  next hnotomb =>
  set r₁ := if (r.tasks t).getStatus = .abortStatus then tryUndo H r t else r with hr₁
  have hm₁ : TombsMatch r₁ := by
    rw [hr₁]
    split
    · exact hm.congr (tryUndo_tombs r t) (tryUndo_goroutines r t)
    · exact hm
  have ht₁ : r₁.tombs t = false := by
    rw [hr₁]
    split <;> simpa using hnotomb
  rcases considerIdle_cases h with rfl | rfl | rfl | ⟨-, hrun⟩
  · exact hm₁
  · rcases (clean_cases r₁ t changeReady).2.2.2 with ⟨htombs, hgoroutines⟩ | ⟨htombs, hgoroutines⟩
    · exact hm₁.congr htombs hgoroutines
    · exact hm₁.start ht₁ .cleanup htombs hgoroutines
  · exact hm₁.congr rfl rfl
  · obtain ⟨-, -, -, -, -, htombs, hgoroutines, -⟩ := run_eq_some hrun
    exact hm₁.start ht₁ .handler htombs hgoroutines

variable [DecidableEq χ]

theorem MicroStep.tombsMatch {r r' : Runner τ χ} (h : MicroStep H r r') (hm : TombsMatch r) :
    TombsMatch r' := by
  cases h with
  | considerTask t now blocked changeReady _ h => exact consider_tombsMatch h hm
  | handlerEnd t res now fuel ready hlive h =>
    obtain ⟨-, htombs, hgoroutines⟩ := handlerDone_eq_some h
    exact hm.finish hlive htombs hgoroutines
  | cleanupEnd t succeeded changeReady hlive h =>
    obtain ⟨-, htombs, hgoroutines⟩ := cleanupDone_eq_some h
    exact hm.finish hlive htombs hgoroutines
  | abort c fuel => exact hm.congr rfl rfl
  | abortLanes c lanes fuel => exact hm.congr rfl rfl
  | stop => exact hm.congr rfl rfl

theorem tombsMatch_of_run {r₀ r : Runner τ χ} (hgo : r₀.goroutines = [])
    (htombs : ∀ t, r₀.tombs t = false) (hrun : ReflTransGen (MicroStep H) r₀ r) :
    TombsMatch r := by
  induction hrun with
  | refl => exact ⟨by simp [hgo], fun t => by simp [hgo, htombs t]⟩
  | tail _ hstep ih => exact hstep.tombsMatch ih

end Tombs

section Passes

variable {H} [DecidableEq χ]

omit [DecidableEq χ] in
theorem consider_stopped {r r' : Runner τ χ} {t : τ} {now : Int} {blocked changeReady : Bool}
    (h : consider H r t now blocked changeReady = some r') : r'.stopped = r.stopped := by
  unfold consider at h
  dsimp only at h
  split at h
  · rw [Option.some.inj h.symm]
  split at h
  · rw [Option.some.inj h.symm]
  have hstop₁ : (if (r.tasks t).getStatus = .abortStatus then tryUndo H r t else r).stopped =
      r.stopped := by
    split
    · exact tryUndo_stopped r t
    · rfl
  rw [← hstop₁]
  rcases considerIdle_cases h with rfl | rfl | rfl | ⟨-, hrun⟩
  · rfl
  · exact (clean_cases _ t changeReady).2.2.1
  · rfl
  · obtain ⟨-, -, -, -, -, -, -, hstop⟩ := run_eq_some hrun
    exact hstop

theorem ensureLoop_steps {now : Int} :
    ∀ (order : List (τ × Bool × Bool)) (r r' : Runner τ χ), r.stopped = false →
      ensureLoop H now r order = some r' → ReflTransGen (MicroStep H) r r'
  | [], r, r', _, h => by
    simp only [ensureLoop, Option.some.injEq] at h
    exact h ▸ ReflTransGen.refl
  | (t, blocked, changeReady) :: rest, r, r', hstop, h => by
    simp only [ensureLoop] at h
    obtain ⟨r₁, h₁, hrest⟩ := Option.bind_eq_some_iff.mp h
    have hstop₁ : r₁.stopped = false := (consider_stopped h₁).trans hstop
    exact ReflTransGen.head (.considerTask t now blocked changeReady hstop h₁)
      (ensureLoop_steps rest r₁ r' hstop₁ hrest)

theorem Step.microSteps {r r' : Runner τ χ} (h : Step H r r') : ReflTransGen (MicroStep H) r r' := by
  cases h with
  | ensurePass now order h =>
    unfold ensure at h
    split at h
    · obtain rfl := Option.some.inj h
      exact ReflTransGen.refl
    · next hstop => exact ensureLoop_steps order r r' (by simpa using hstop) h
  | handlerEnd t res now fuel ready hlive h =>
    exact ReflTransGen.single (.handlerEnd t res now fuel ready hlive h)
  | cleanupEnd t succeeded changeReady hlive h =>
    exact ReflTransGen.single (.cleanupEnd t succeeded changeReady hlive h)
  | abort c fuel ready h => exact ReflTransGen.single (.abort r c fuel ready h)
  | abortLanes c lanes fuel ready h => exact ReflTransGen.single (.abortLanes r c lanes fuel ready h)
  | stop => exact ReflTransGen.single (.stop r)

end Passes

variable [DecidableEq χ]

/-- On every run of the runner, at the moment a task moves to `DoingStatus` (its do handler
starts), every task it waits for is done, and at the moment a task moves to `UndoingStatus` (its
undo handler starts), every task waiting for it is ready; every step of the runner, an `Ensure`
pass included, is a run of such moments; and from a runner with no goroutine and no tomb, no
task ever has two goroutines, and the tasks with a tomb are those with one. -/
theorem task_runner_orders_handlers (H : Handlers τ χ) :
    (∀ r r' : Runner τ χ, MicroStep H r r' → ∀ u, (r'.tasks u).getStatus = .doingStatus →
      (r.tasks u).getStatus ≠ .doingStatus →
      ∀ t ∈ (r.tasks u).waitTasks, (r.tasks t).getStatus = .doneStatus) ∧
    (∀ r r' : Runner τ χ, MicroStep H r r' → ∀ t, (r'.tasks t).getStatus = .undoingStatus →
      (r.tasks t).getStatus ≠ .undoingStatus →
      ∀ u ∈ (r.tasks t).haltTasks, (r.tasks u).getStatus.ready = true) ∧
    (∀ r r' : Runner τ χ, Step H r r' → ReflTransGen (MicroStep H) r r') ∧
    (∀ r₀ r : Runner τ χ, r₀.goroutines = [] → (∀ t, r₀.tombs t = false) →
      ReflTransGen (Step H) r₀ r →
      (r.goroutines.map Prod.fst).Nodup ∧ ∀ t, r.tombs t = true ↔ t ∈ r.goroutines.map Prod.fst) := by
  refine ⟨fun r r' h u => h.doing_waits_done, fun r r' h t => h.undoing_halts_ready,
    fun r r' h => h.microSteps, fun r₀ r hgo htombs hrun => ?_⟩
  have hmicro : ReflTransGen (MicroStep H) r₀ r := by
    induction hrun with
    | refl => exact ReflTransGen.refl
    | tail _ hstep ih => exact ih.trans hstep.microSteps
  obtain ⟨hnodup, hmatch⟩ := tombsMatch_of_run hgo htombs hmicro
  exact ⟨hnodup, hmatch⟩

/-- Two tasks of one change, with handlers for both and no cleanup: task 0 is done, task 1 is to
do and waits for it. -/
def twoTaskRunner : Runner (Fin 2) Unit where
  tasks
    | 0 => ⟨⟨.doneStatus, [], [1]⟩, .defaultStatus, [], (), false, none⟩
    | 1 => ⟨⟨.doStatus, [0], []⟩, .defaultStatus, [], (), false, none⟩
  changes _ := ⟨.defaultStatus, [0, 1]⟩
  tombs _ := false
  goroutines := []
  stopped := false

def twoTaskHandlers : Handlers (Fin 2) Unit := ⟨fun _ _ => ⟨true, true⟩, fun _ _ => false⟩

/-- The `Ensure` step of task 1 at time 0, not blocked. -/
def twoTaskStep : Runner (Fin 2) Unit :=
  (consider twoTaskHandlers twoTaskRunner 1 0 false false).getD twoTaskRunner

theorem task_runner_orders_handlers_on_two_tasks :
    MicroStep twoTaskHandlers twoTaskRunner twoTaskStep ∧
      (twoTaskStep.tasks 1).getStatus = .doingStatus ∧
      ∀ t ∈ (twoTaskRunner.tasks 1).waitTasks, (twoTaskRunner.tasks t).getStatus = .doneStatus :=
  have hstep : MicroStep twoTaskHandlers twoTaskRunner twoTaskStep :=
    .considerTask 1 0 false false rfl rfl
  have hdoing : (twoTaskStep.tasks 1).getStatus = .doingStatus := by decide
  ⟨hstep, hdoing, (task_runner_orders_handlers twoTaskHandlers).1 _ _ hstep 1 hdoing (by decide)⟩

end Snapd.State
