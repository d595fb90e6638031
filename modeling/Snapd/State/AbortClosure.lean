import Snapd.State.Abort
import Snapd.Lib.Worklist
import Mathlib.Algebra.Order.BigOperators.Group.List
import Mathlib.Algebra.Order.Group.Nat
import Mathlib.Algebra.GroupWithZero.Nat

/-! What `Change.Abort` and `Change.AbortLanes` leave (overlord/state/change.go). Once
`abortTasks` has seen a set of tasks, each of them is aborted by its effective status and every
other task is as it was; the walk ends with a set closed under `HaltTasks`. The tasks of a state
are finitely many, so a list `U` of tasks holds the change's tasks and the tasks they halt; with
it the walk is bounded, and from a fuel that `U` gives on, both functions end one way. That end
may be the panic of `detectChangeReady`: an abort that makes a change ready on the way and then
unready again. -/

namespace Snapd.State

variable {τ χ : Type} [DecidableEq τ]

/-- The tasks once `abortTasks` has seen `seen`, from `tasks`. -/
def abortedView (tasks : τ → RunnerTask τ χ) (seen : List τ) : τ → RunnerTask τ χ :=
  fun u => if u ∈ seen then (tasks u).aborted else tasks u

section View

variable {tasks : τ → RunnerTask τ χ} {seen : List τ}

omit [DecidableEq τ] in
theorem RunnerTask.aborted_haltTasks (t : RunnerTask τ χ) : t.aborted.haltTasks = t.haltTasks := by
  unfold RunnerTask.aborted RunnerTask.setStatus
  split
  · split <;> rfl
  · rfl

theorem abortedView_nil (tasks : τ → RunnerTask τ χ) : abortedView tasks [] = tasks := by
  funext u
  simp [abortedView]

theorem abortedView_of_not_mem {u : τ} (h : u ∉ seen) : abortedView tasks seen u = tasks u := by
  simp [abortedView, h]

theorem abortedView_of_mem {u : τ} (h : u ∈ seen) : abortedView tasks seen u = (tasks u).aborted := by
  simp [abortedView, h]

theorem abortedView_cons_of_ne {u tid : τ} (hu : u ≠ tid) :
    abortedView tasks (tid :: seen) u = abortedView tasks seen u := by
  simp [abortedView, hu]

theorem update_aborted_abortedView {tid : τ} (h : tid ∉ seen) :
    Function.update (abortedView tasks seen) tid (abortedView tasks seen tid).aborted =
      abortedView tasks (tid :: seen) := by
  rw [abortedView_of_not_mem h]
  funext u
  by_cases hu : u = tid
  · subst hu
    rw [Function.update_self, abortedView_of_mem List.mem_cons_self]
  · rw [Function.update_of_ne hu, abortedView_cons_of_ne hu]

theorem abortedStatus_eq_some {st s : Status} (h : abortedStatus st = some s) :
    (st = .doStatus ∧ s = .holdStatus) ∨ (st = .doingStatus ∧ s = .abortStatus) ∨
      (st = .doneStatus ∧ s = .undoStatus) := by
  cases st <;> simp_all [abortedStatus]

theorem abortedStatus_eq_none {st : Status} :
    abortedStatus st = none ↔ st ∉ [.doStatus, .doingStatus, .doneStatus] := by
  cases st <;> simp [abortedStatus]

omit [DecidableEq τ] in
/-- The status a task is aborted to is not the one it has: a live effective status is never
`HoldStatus`, `AbortStatus` or `UndoStatus`. -/
theorem RunnerTask.status_ne_of_abortedStatus {t : RunnerTask τ χ} {s : Status}
    (h : abortedStatus t.effectiveStatus = some s) : t.status ≠ s := by
  intro hst
  have hs := abortedStatus_eq_some h
  unfold RunnerTask.effectiveStatus Task.getStatus at h
  rw [hst] at h
  rcases hs with ⟨-, rfl⟩ | ⟨-, rfl⟩ | ⟨-, rfl⟩ <;> simp [abortedStatus] at h

omit [DecidableEq τ] in
theorem RunnerTask.aborted_eq {t : RunnerTask τ χ} {s : Status}
    (h : abortedStatus t.effectiveStatus = some s) : t.aborted = { t with status := s } := by
  have hdone : s ≠ .doneStatus := by
    rcases abortedStatus_eq_some h with ⟨-, rfl⟩ | ⟨-, rfl⟩ | ⟨-, rfl⟩ <;> decide
  simp [RunnerTask.aborted, h, RunnerTask.setStatus, hdone]

omit [DecidableEq τ] in
theorem RunnerTask.aborted_effectiveStatus (t : RunnerTask τ χ) :
    t.aborted.effectiveStatus ∉ [.doStatus, .doingStatus, .doneStatus] := by
  cases h : abortedStatus t.effectiveStatus with
  | none => rwa [RunnerTask.aborted, h, ← abortedStatus_eq_none]
  | some s =>
    rw [RunnerTask.aborted_eq h]
    rcases abortedStatus_eq_some h with ⟨-, rfl⟩ | ⟨-, rfl⟩ | ⟨-, rfl⟩ <;>
      simp [RunnerTask.effectiveStatus, Task.getStatus]

end View

section Steps

variable [DecidableEq χ] {changes : χ → Change τ} {tasks : τ → RunnerTask τ χ} {taskIDs : List τ}
  {abortedLanes lanes : List Int} {seen : List τ} {fuel : Nat}

omit [DecidableEq τ] [DecidableEq χ] in
theorem scanLanes_fst_sublist (lanes : List Int) (taskIDs : List τ) :
    (scanLanes tasks lanes taskIDs).1.Sublist taskIDs := by
  induction taskIDs with
  | nil => exact List.Sublist.slnil
  | cons tid rest ih =>
    simp only [scanLanes]
    split
    · exact ih.cons_cons tid
    · exact ih.cons tid

theorem abortLanes_succ (changes : χ → Change τ) (st : AbortState τ χ) (taskIDs : List τ)
    (lanes abortedLanes : List Int) (seen : List τ) :
    ∃ toAbort, toAbort.Sublist taskIDs ∧ ∀ fuel,
      abortLanes (fuel + 1) changes st taskIDs lanes abortedLanes seen =
        if toAbort = [] then .ok st
        else abortTasks fuel changes st taskIDs toAbort (abortedLanes ++ lanes) seen [] :=
  ⟨_, List.filter_sublist.trans (scanLanes_fst_sublist lanes taskIDs), fun _ => rfl⟩

theorem abortTasks_nil (st : AbortState τ χ) :
    abortTasks (fuel + 1) changes st taskIDs [] abortedLanes seen lanes =
      if lanes = [] then .ok st else abortLanes fuel changes st taskIDs lanes abortedLanes seen :=
  rfl

theorem abortTasks_seen {tid : τ} {rest : List τ} (h : tid ∈ seen) (st : AbortState τ χ) :
    abortTasks (fuel + 1) changes st taskIDs (tid :: rest) abortedLanes seen lanes =
      abortTasks fuel changes st taskIDs rest abortedLanes seen lanes := by
  simp [abortTasks, h]

theorem abortTasks_unseen {st : AbortState τ χ} (hst : st.tasks = abortedView tasks seen)
    {tid : τ} {rest : List τ} (h : tid ∉ seen) :
    abortTasks (fuel + 1) changes st taskIDs (tid :: rest) abortedLanes seen lanes =
      (abortTask changes st tid).bind fun st' => abortTasks fuel changes st' taskIDs
        (rest ++ (tasks tid).haltTasks.filter fun h => h ∉ tid :: seen) abortedLanes (tid :: seen)
        (lanes ++ ((tasks tid).getLanes.filter fun l => l ∉ abortedLanes).flatMap
          fun _ => (tasks tid).getLanes) := by
  have ht : st.tasks tid = tasks tid := by rw [hst, abortedView_of_not_mem h]
  simp only [abortTasks, h, if_false, ht]
  cases abortTask changes st tid <;> rfl

theorem abortTask_abortedView {st st' : AbortState τ χ} (hst : st.tasks = abortedView tasks seen)
    {tid : τ} (h : tid ∉ seen) (ha : abortTask changes st tid = .ok st') :
    st'.tasks = abortedView tasks (tid :: seen) := by
  rw [abortTask_tasks ha, hst, update_aborted_abortedView h]

end Steps

section Frame

variable [DecidableEq χ] (P : τ → Prop) (c : χ)

/-- `P` holds of every task a task of `P` halts, and its tasks belong to the change `c`. -/
def WithinChange (tasks : τ → RunnerTask τ χ) : Prop :=
  ∀ u, P u → (tasks u).change = c ∧ ∀ h ∈ (tasks u).haltTasks, P h

/-- What an abort of tasks of `P` leaves, where `P` is `WithinChange` of `c`: only tasks of `P`
change, only in their statuses, and of the ready state only that of `c`. -/
structure AbortFrame (st st' : AbortState τ χ) : Prop where
  only : AbortsOnly st.tasks st'.tasks
  tasks : ∀ u, ¬ P u → st'.tasks u = st.tasks u
  ready : st.ready.MarksOnly c st'.ready

variable {P c} {changes : χ → Change τ} {st₁ st₂ st₃ : AbortState τ χ}

omit [DecidableEq τ] [DecidableEq χ] in
theorem WithinChange.of_abortsOnly {tasks tasks' : τ → RunnerTask τ χ} (hw : WithinChange P c tasks)
    (h : AbortsOnly tasks tasks') : WithinChange P c tasks' := by
  intro u hu
  rw [(h.change_haltTasks u).1, (h.change_haltTasks u).2]
  exact hw u hu

omit [DecidableEq τ] [DecidableEq χ] in
theorem AbortFrame.refl (st : AbortState τ χ) : AbortFrame P c st st :=
  ⟨.refl _, fun _ _ => rfl, .refl _ _⟩

omit [DecidableEq τ] [DecidableEq χ] in
theorem AbortFrame.trans (h₁ : AbortFrame P c st₁ st₂) (h₂ : AbortFrame P c st₂ st₃) :
    AbortFrame P c st₁ st₃ :=
  ⟨h₁.only.trans h₂.only, fun u hu => (h₂.tasks u hu).trans (h₁.tasks u hu), h₁.ready.trans h₂.ready⟩

theorem abortTask_frame {tid : τ} (hw : WithinChange P c st₁.tasks) (htid : P tid)
    (h : abortTask changes st₁ tid = .ok st₂) : AbortFrame P c st₁ st₂ := by
  have htasks := abortTask_tasks h
  refine ⟨htasks ▸ abortsOnly_update_aborted _ _, fun u hu => ?_, ?_⟩
  · have hne : u ≠ tid := fun hut => hu (hut ▸ htid)
    rw [htasks, Function.update_of_ne hne]
  · rw [← (hw tid htid).1]
    exact abortTask_marksOnly h

/-- An abort of tasks of `P`, `WithinChange` of `c`, stays within `P` and `c`: by induction on the
fuel, each task aborted is one of `P`, and a task of `P` hands on only tasks of `P`. -/
theorem abort_frame : ∀ fuel : Nat,
    (∀ (st st' : AbortState τ χ) taskIDs lanes abortedLanes seen,
      WithinChange P c st.tasks → (∀ u ∈ taskIDs, P u) →
      abortLanes fuel changes st taskIDs lanes abortedLanes seen = .ok st' → AbortFrame P c st st') ∧
    (∀ (st st' : AbortState τ χ) taskIDs pending abortedLanes seen lanes,
      WithinChange P c st.tasks → (∀ u ∈ taskIDs, P u) → (∀ u ∈ pending, P u) →
      abortTasks fuel changes st taskIDs pending abortedLanes seen lanes = .ok st' →
        AbortFrame P c st st')
  | 0 => ⟨fun _ _ _ _ _ _ _ _ h => by simp [abortLanes] at h,
      fun _ _ _ _ _ _ _ _ _ _ h => by simp [abortTasks] at h⟩
  | fuel + 1 => by
    obtain ⟨ihLanes, ihTasks⟩ := abort_frame fuel
    refine ⟨fun st st' taskIDs lanes abortedLanes seen hw hids h => ?_,
      fun st st' taskIDs pending abortedLanes seen lanes hw hids hpend h => ?_⟩
    · obtain ⟨toAbort, hsub, heq⟩ := abortLanes_succ changes st taskIDs lanes abortedLanes seen
      rw [heq] at h
      split at h
      · cases h
        exact .refl st
      · exact ihTasks _ _ _ _ _ _ _ hw hids (fun u hu => hids u (hsub.subset hu)) h
    · cases pending with
      | nil =>
        rw [abortTasks_nil] at h
        split at h
        · cases h
          exact .refl st
        · exact ihLanes _ _ _ _ _ _ hw hids h
      | cons tid rest =>
        have htid : P tid := hpend tid List.mem_cons_self
        have hrest : ∀ u ∈ rest, P u := fun u hu => hpend u (List.mem_cons_of_mem _ hu)
        simp only [abortTasks] at h
        split at h
        · exact ihTasks _ _ _ _ _ _ _ hw hids hrest h
        · cases ha : abortTask changes st tid with
          | error e =>
            rw [ha] at h
            cases h
          | ok st₁ =>
            rw [ha] at h
            have hframe := abortTask_frame hw htid ha
            refine hframe.trans (ihTasks _ _ _ _ _ _ _ (hw.of_abortsOnly hframe.only) hids ?_ h)
            intro u hu
            rcases List.mem_append.mp hu with hu | hu
            · exact hrest u hu
            · exact (hw tid htid).2 u (List.mem_of_mem_filter hu)

theorem changeAbortLanes_frame {fuel : Nat} {st st' : AbortState τ χ} {chg : Change τ}
    {lanes : List Int} (hw : WithinChange P c st.tasks) (hids : ∀ u ∈ chg.taskIDs, P u)
    (h : changeAbortLanes fuel changes st chg lanes = .ok st') : AbortFrame P c st st' :=
  (abort_frame fuel).1 _ _ _ _ _ _ hw hids h

end Frame

section Fuel

variable (tasks : τ → RunnerTask τ χ) (U taskIDs : List τ)

/-- The tasks of `U` not seen yet. -/
def unseenCount (seen : List τ) : Nat := U.countP fun u => u ∉ seen

/-- The fuel one round of `abortLanes` takes besides the tasks it sees: its own turn, the tasks
it hands on, and the end of their walk. -/
def roundFuel : Nat := taskIDs.length + 2

/-- The fuel seeing one more task may cost: the tasks it halts, and one more round. -/
def taskFuel : Nat := (U.map fun u => (tasks u).haltTasks.length).sum + roundFuel taskIDs + 1

/-- A fuel from which on both functions have ended, from nothing seen. -/
def abortFuel : Nat := U.length * taskFuel tasks U taskIDs + roundFuel taskIDs + taskIDs.length

/-- Every task a seen task halts is seen or queued. -/
def HaltClosed (seen pending : List τ) : Prop :=
  ∀ t ∈ seen, ∀ h ∈ (tasks t).haltTasks, h ∈ seen ∨ h ∈ pending

variable {tasks U} {seen : List τ} {tid : τ} {rest : List τ}

theorem unseenCount_cons_lt (hU : tid ∈ U) (h : tid ∉ seen) :
    unseenCount U (tid :: seen) < unseenCount U seen :=
  Worklist.countP_not_mem_cons_lt hU h

/-- Seeing a task of `U` pays for the tasks it queues and for a round of the lanes it adds. -/
theorem budget_see (htid : tid ∈ U) (hs : tid ∉ seen) {lanes lanes' : List Int} {fuel : Nat}
    (hfuel : (tid :: rest).length + unseenCount U seen * taskFuel tasks U taskIDs +
      (if lanes = [] then 0 else roundFuel taskIDs) < fuel + 1) :
    (rest ++ (tasks tid).haltTasks.filter fun h => h ∉ tid :: seen).length +
      unseenCount U (tid :: seen) * taskFuel tasks U taskIDs +
      (if lanes' = [] then 0 else roundFuel taskIDs) < fuel := by
  have hhalted : ((tasks tid).haltTasks.filter fun h => h ∉ tid :: seen).length ≤
      (U.map fun u => (tasks u).haltTasks.length).sum :=
    (List.length_filter_le _ _).trans (List.le_sum_of_mem (List.mem_map_of_mem htid))
  have hcount : unseenCount U (tid :: seen) * taskFuel tasks U taskIDs +
      taskFuel tasks U taskIDs ≤ unseenCount U seen * taskFuel tasks U taskIDs := by
    rw [← Nat.succ_mul]
    exact Nat.mul_le_mul_right _ (unseenCount_cons_lt htid hs)
  have hround : (if lanes' = [] then 0 else roundFuel taskIDs) ≤ roundFuel taskIDs := by
    split <;> omega
  have hK : taskFuel tasks U taskIDs =
      (U.map fun u => (tasks u).haltTasks.length).sum + roundFuel taskIDs + 1 := rfl
  simp only [List.length_append, List.length_cons] at hfuel ⊢
  omega

omit [DecidableEq τ] in
theorem HaltClosed.of_nil (hc : HaltClosed tasks seen []) (pending : List τ) :
    HaltClosed tasks seen pending := by
  intro t ht h hh
  rcases hc t ht h hh with hs | hp
  · exact .inl hs
  · exact absurd hp List.not_mem_nil

omit [DecidableEq τ] in
theorem HaltClosed.skip (hc : HaltClosed tasks seen (tid :: rest)) (hs : tid ∈ seen) :
    HaltClosed tasks seen rest := by
  intro t ht h hh
  rcases hc t ht h hh with hseen | hpend
  · exact .inl hseen
  · rcases List.mem_cons.mp hpend with rfl | hrest
    · exact .inl hs
    · exact .inr hrest

theorem HaltClosed.see (hc : HaltClosed tasks seen (tid :: rest)) :
    HaltClosed tasks (tid :: seen) (rest ++ (tasks tid).haltTasks.filter fun h => h ∉ tid :: seen) := by
  intro t ht h hh
  by_cases hnew : h ∈ tid :: seen
  · exact .inl hnew
  · right
    rcases List.mem_cons.mp ht with rfl | hseen
    · exact List.mem_append_right _ (List.mem_filter.mpr ⟨hh, by simpa using hnew⟩)
    · rcases hc t hseen h hh with hs | hpend
      · exact absurd (List.mem_cons_of_mem _ hs) hnew
      · rcases List.mem_cons.mp hpend with rfl | hrest
        · exact absurd List.mem_cons_self hnew
        · exact List.mem_append_left _ hrest

end Fuel

section Walk

variable [DecidableEq χ] {tasks : τ → RunnerTask τ χ} {U taskIDs : List τ}

/-- How a walk that has seen `seen`, with `pending` to go, ends: not for want of fuel, and with a
state only at the view of a set of seen tasks within `U` that holds both and is closed under
`HaltTasks`. -/
structure WalkEnd (tasks : τ → RunnerTask τ χ) (U seen pending : List τ)
    (res : Except (AbortFault χ) (AbortState τ χ)) : Prop where
  ne_outOfFuel : res ≠ .error .outOfFuel
  ok : ∀ st', res = .ok st' → ∃ seen', seen ⊆ seen' ∧ pending ⊆ seen' ∧ seen' ⊆ U ∧
    HaltClosed tasks seen' [] ∧ st'.tasks = abortedView tasks seen'

omit [DecidableEq χ] in
theorem WalkEnd.stop {seen : List τ} {st : AbortState τ χ} (hst : st.tasks = abortedView tasks seen)
    (hseen : seen ⊆ U) (hhc : HaltClosed tasks seen []) : WalkEnd tasks U seen [] (.ok st) :=
  ⟨nofun, fun st' h => ⟨seen, fun _ h => h, List.nil_subset _, hseen, hhc, by cases h; exact hst⟩⟩

omit [DecidableEq χ] in
theorem WalkEnd.panic {seen pending : List τ} {e : AbortFault χ} (he : e ≠ .outOfFuel) :
    WalkEnd tasks U seen pending (.error e) :=
  ⟨fun h => he (by cases h; rfl), fun _ h => nomatch h⟩

omit [DecidableEq χ] in
/-- The end of the rest of a walk is the end of the walk, once what it had seen and had to go
are seen or to go in the rest. -/
theorem WalkEnd.weaken {seen pending seen₂ pending₂ : List τ}
    {res : Except (AbortFault χ) (AbortState τ χ)} (h : WalkEnd tasks U seen₂ pending₂ res)
    (hs : seen ⊆ seen₂) (hp : ∀ x ∈ pending, x ∈ seen₂ ∨ x ∈ pending₂) :
    WalkEnd tasks U seen pending res := by
  refine ⟨h.ne_outOfFuel, fun st' hres => ?_⟩
  obtain ⟨seen', hsub, hpend, hU, hhc, hview⟩ := h.ok st' hres
  exact ⟨seen', List.Subset.trans hs hsub, fun x hx => (hp x hx).elim (fun h => hsub h) (fun h => hpend h),
    hU, hhc, hview⟩

/-- With `U` closed under `HaltTasks` and holding the change's tasks, both functions, given the
fuel their budget asks for, end as `WalkEnd` says, and more fuel gives the same. By induction on
the fuel, over the two at once; the budget is the pending tasks, `taskFuel` for each task of `U`
not seen yet, `roundFuel` for a round of lanes still to come, and the end of the walk. -/
theorem abort_walk (changes : χ → Change τ) (hU : taskIDs ⊆ U)
    (hclosed : ∀ t ∈ U, ∀ h ∈ (tasks t).haltTasks, h ∈ U) :
    ∀ fuel : Nat,
    (∀ (st : AbortState τ χ) lanes abortedLanes seen, st.tasks = abortedView tasks seen →
      seen ⊆ U → HaltClosed tasks seen [] →
      unseenCount U seen * taskFuel tasks U taskIDs + roundFuel taskIDs ≤ fuel →
      ∃ res, (∀ k, abortLanes (fuel + k) changes st taskIDs lanes abortedLanes seen = res) ∧
        WalkEnd tasks U seen [] res) ∧
    (∀ (st : AbortState τ χ) pending abortedLanes seen lanes, st.tasks = abortedView tasks seen →
      seen ⊆ U → pending ⊆ U → HaltClosed tasks seen pending →
      pending.length + unseenCount U seen * taskFuel tasks U taskIDs +
        (if lanes = [] then 0 else roundFuel taskIDs) < fuel →
      ∃ res, (∀ k, abortTasks (fuel + k) changes st taskIDs pending abortedLanes seen lanes = res) ∧
        WalkEnd tasks U seen pending res) := by
  intro fuel
  induction fuel with
  | zero =>
    exact ⟨fun _ _ _ _ _ _ _ hfuel => by simp only [roundFuel] at hfuel; omega,
      fun _ _ _ _ _ _ _ _ _ hfuel => by omega⟩
  | succ fuel ih =>
    obtain ⟨ihLanes, ihTasks⟩ := ih
    refine ⟨fun st lanes abortedLanes seen hst hseen hhc hfuel => ?_,
      fun st pending abortedLanes seen lanes hst hseen hpending hhc hfuel => ?_⟩
    · -- a round hands on some of the change's tasks, which are in `U`
      obtain ⟨toAbort, hsub, hstep⟩ := abortLanes_succ changes st taskIDs lanes abortedLanes seen
      by_cases hnone : toAbort = []
      · refine ⟨_, fun k => ?_, WalkEnd.stop hst hseen hhc⟩
        rw [Nat.add_right_comm, hstep, if_pos hnone]
      · have hlen := hsub.length_le
        obtain ⟨res, hrun, hend⟩ := ihTasks st toAbort (abortedLanes ++ lanes) seen [] hst hseen
          (fun _ hx => hU (hsub.subset hx)) (hhc.of_nil toAbort)
          (by simp only [roundFuel, if_pos] at hfuel ⊢; omega)
        refine ⟨res, fun k => ?_, hend.weaken (fun _ h => h) (fun _ h => nomatch h)⟩
        rw [Nat.add_right_comm, hstep, if_neg hnone, hrun k]
    · cases pending with
      | nil =>
        by_cases hlanes : lanes = []
        · refine ⟨_, fun k => ?_, WalkEnd.stop hst hseen (hhc.of_nil [])⟩
          rw [Nat.add_right_comm, abortTasks_nil, if_pos hlanes]
        · -- the walk ends and the lanes it collected make one more round
          obtain ⟨res, hrun, hend⟩ := ihLanes st lanes abortedLanes seen hst hseen (hhc.of_nil [])
            (by simp only [hlanes, if_false, List.length_nil] at hfuel; omega)
          refine ⟨res, fun k => ?_, hend⟩
          rw [Nat.add_right_comm, abortTasks_nil, if_neg hlanes, hrun k]
      | cons tid rest =>
        have hrestU : rest ⊆ U := fun _ h => hpending (List.mem_cons_of_mem _ h)
        by_cases hs : tid ∈ seen
        · obtain ⟨res, hrun, hend⟩ := ihTasks st rest abortedLanes seen lanes hst hseen hrestU
            (hhc.skip hs) (by simp only [List.length_cons] at hfuel; omega)
          refine ⟨res, fun k => ?_, hend.weaken (fun _ h => h) fun x hx => ?_⟩
          · rw [Nat.add_right_comm, abortTasks_seen hs, hrun k]
          · rcases List.mem_cons.mp hx with rfl | hx
            · exact .inl hs
            · exact .inr hx
        · cases ha : abortTask changes st tid with
          | error e =>
            have he : e ≠ .outOfFuel := fun he => abortTask_ne_outOfFuel (ha.trans (by rw [he]))
            refine ⟨.error e, fun k => ?_, WalkEnd.panic he⟩
            rw [Nat.add_right_comm, abortTasks_unseen hst hs, ha]
            rfl
          | ok st₁ =>
            -- `tid` is seen now: one task of `U` fewer to see pays for what it queues
            have htidU : tid ∈ U := hpending List.mem_cons_self
            have hhaltedU : ∀ h ∈ (tasks tid).haltTasks.filter fun h => h ∉ tid :: seen, h ∈ U :=
              fun h hh => hclosed tid htidU h (List.mem_filter.mp hh).1
            have hK : taskFuel tasks U taskIDs =
                (U.map fun u => (tasks u).haltTasks.length).sum + roundFuel taskIDs + 1 := rfl
            obtain ⟨res, hrun, hend⟩ := ihTasks st₁ _ abortedLanes (tid :: seen)
              (lanes ++ ((tasks tid).getLanes.filter fun l => l ∉ abortedLanes).flatMap
                fun _ => (tasks tid).getLanes)
              (abortTask_abortedView hst hs ha) (List.cons_subset.mpr ⟨htidU, hseen⟩)
              (List.append_subset.mpr ⟨hrestU, hhaltedU⟩) hhc.see (budget_see taskIDs htidU hs hfuel)
            refine ⟨res, fun k => ?_,
              hend.weaken (fun _ h => List.mem_cons_of_mem _ h) fun x hx => ?_⟩
            · rw [Nat.add_right_comm, abortTasks_unseen hst hs, ha]
              exact hrun k
            · rcases List.mem_cons.mp hx with rfl | hx
              · exact .inl List.mem_cons_self
              · exact .inr (List.mem_append_left _ hx)

/-- What an abort leaves: (a) a task that changed had a live effective status and only its status
changed, to `HoldStatus`, `AbortStatus` or `UndoStatus` as `abortedStatus` maps it, and (b) a
live task waiting for a task that changed changed too. -/
structure AbortOutcome (tasks tasks' : τ → RunnerTask τ χ) : Prop where
  status_map : ∀ u, tasks' u = tasks u ∨
    ∃ s, abortedStatus (tasks u).effectiveStatus = some s ∧ tasks' u = { tasks u with status := s }
  halt_closed : ∀ t u, tasks' t ≠ tasks t → u ∈ (tasks t).haltTasks →
    (tasks u).effectiveStatus ∈ [.doStatus, .doingStatus, .doneStatus] → tasks' u ≠ tasks u

omit [DecidableEq χ] in
theorem abortOutcome_abortedView {tasks : τ → RunnerTask τ χ} {seen : List τ}
    (hc : HaltClosed tasks seen []) : AbortOutcome tasks (abortedView tasks seen) where
  status_map u := by
    by_cases hu : u ∈ seen
    · rw [abortedView_of_mem hu]
      cases hs : abortedStatus (tasks u).effectiveStatus with
      | none => exact .inl (by simp [RunnerTask.aborted, hs])
      | some s => exact .inr ⟨s, rfl, RunnerTask.aborted_eq hs⟩
    · exact .inl (abortedView_of_not_mem hu)
  halt_closed t u hchanged hu hlive := by
    -- only seen tasks change, and a seen task's halted tasks are seen
    have ht : t ∈ seen := by
      by_contra ht
      exact hchanged (abortedView_of_not_mem ht)
    have hseen : u ∈ seen := (hc t ht u hu).resolve_right List.not_mem_nil
    obtain ⟨s, hs⟩ := Option.ne_none_iff_exists'.mp (mt abortedStatus_eq_none.mp (not_not.mpr hlive))
    rw [abortedView_of_mem hseen, RunnerTask.aborted_eq hs]
    intro heq
    exact RunnerTask.status_ne_of_abortedStatus hs (congrArg (·.status) heq).symm

omit [DecidableEq χ] in
theorem unseenCount_nil (U : List τ) : unseenCount U [] = U.length := by
  simp [unseenCount]

omit [DecidableEq τ] [DecidableEq χ] in
theorem fuel_end_or_outOfFuel {f : Nat → Except (AbortFault χ) (AbortState τ χ)}
    {res : Except (AbortFault χ) (AbortState τ χ)} {N : Nat} (hN : ∀ fuel ≥ N, f fuel = res)
    (hadd : ∀ fuel, f fuel ≠ .error .outOfFuel → f (fuel + N) = f fuel) (fuel : Nat) :
    f fuel = res ∨ f fuel = .error .outOfFuel := by
  by_cases hout : f fuel = .error .outOfFuel
  · exact .inr hout
  · exact .inl ((hadd fuel hout).symm.trans (hN _ (Nat.le_add_left _ _)))

/-- `Change.AbortLanes` and `Change.Abort` end: from the fuel `U` gives on, each returns one
end, which is not running out of fuel, and no fuel gives another. An end with a state leaves an
`AbortOutcome`, and after `Abort` no task of the change is live. -/
theorem abort_terminates_with_closed_outcome (changes : χ → Change τ) (st : AbortState τ χ)
    (c : Change τ) (lanes : List Int) (U : List τ) (hU : c.taskIDs ⊆ U)
    (hclosed : ∀ t ∈ U, ∀ h ∈ (st.tasks t).haltTasks, h ∈ U) :
    ∃ N resLanes resAbort,
      (∀ fuel ≥ N, changeAbortLanes fuel changes st c lanes = resLanes ∧
        changeAbort fuel changes st c = resAbort) ∧
      resLanes ≠ .error .outOfFuel ∧ resAbort ≠ .error .outOfFuel ∧
      (∀ fuel, (changeAbortLanes fuel changes st c lanes = resLanes ∨
          changeAbortLanes fuel changes st c lanes = .error .outOfFuel) ∧
        (changeAbort fuel changes st c = resAbort ∨ changeAbort fuel changes st c = .error .outOfFuel)) ∧
      (∀ st', resLanes = .ok st' → AbortOutcome st.tasks st'.tasks) ∧
      (∀ st', resAbort = .ok st' → AbortOutcome st.tasks st'.tasks ∧
        ∀ u ∈ c.taskIDs, (st'.tasks u).effectiveStatus ∉ [.doStatus, .doingStatus, .doneStatus]) := by
  have hst : st.tasks = abortedView st.tasks [] := (abortedView_nil st.tasks).symm
  obtain ⟨hLanes, hTasks⟩ := abort_walk changes hU hclosed (abortFuel st.tasks U c.taskIDs)
  have hnil : HaltClosed st.tasks [] [] := fun _ h => absurd h List.not_mem_nil
  obtain ⟨resLanes, hlanes, hendLanes⟩ := hLanes st lanes [] [] hst (List.nil_subset _) hnil
    (by rw [unseenCount_nil, abortFuel]; omega)
  obtain ⟨resAbort, habort, hendAbort⟩ := hTasks st c.taskIDs [] [] [] hst (List.nil_subset _) hU
    (hnil.of_nil _) (by rw [unseenCount_nil, if_pos rfl, abortFuel, roundFuel]; omega)
  change ∀ k, changeAbortLanes _ changes st c lanes = _ at hlanes
  change ∀ k, changeAbort _ changes st c = _ at habort
  have hafter : ∀ fuel ≥ abortFuel st.tasks U c.taskIDs,
      changeAbortLanes fuel changes st c lanes = resLanes ∧ changeAbort fuel changes st c = resAbort := by
    intro fuel hfuel
    obtain ⟨k, rfl⟩ := Nat.exists_eq_add_of_le hfuel
    exact ⟨hlanes k, habort k⟩
  refine ⟨_, resLanes, resAbort, hafter, hendLanes.ne_outOfFuel, hendAbort.ne_outOfFuel,
    fun fuel => ⟨?_, ?_⟩, fun st' hres => ?_, fun st' hres => ?_⟩
  · exact fuel_end_or_outOfFuel (fun fuel h => (hafter fuel h).1)
      (fun fuel h => changeAbortLanes_fuel_add h _) fuel
  · exact fuel_end_or_outOfFuel (fun fuel h => (hafter fuel h).2)
      (fun fuel h => changeAbort_fuel_add h _) fuel
  · obtain ⟨seen', -, -, -, hc, hview⟩ := hendLanes.ok st' hres
    rw [hview]
    exact abortOutcome_abortedView hc
  · obtain ⟨seen', -, hall, -, hc, hview⟩ := hendAbort.ok st' hres
    rw [hview]
    refine ⟨abortOutcome_abortedView hc, fun u hu => ?_⟩
    rw [abortedView_of_mem (hall hu)]
    exact RunnerTask.aborted_effectiveStatus _

/-- Two tasks of lane `1` in one change: the first to do, the second done. The change was never
marked ready, as the second became done while the first was not. -/
def doThenDoneTasks : Nat → RunnerTask Nat Unit
  | 0 => ⟨⟨.doStatus, [], []⟩, .defaultStatus, [1], (), false, none⟩
  | _ => ⟨⟨.doneStatus, [], []⟩, .defaultStatus, [1], (), false, none⟩

def doThenDoneChange : Change Nat := ⟨.defaultStatus, [0, 1]⟩

/-- No change marked ready, at time `0`. -/
def neverReady : ReadyState Unit := ⟨fun _ => false, fun _ => none, 0⟩

/-- Aborting the first task makes every other task of the change ready, so `detectChangeReady`
marks the change ready; undoing the second then makes it unready, and `Abort` and
`AbortLanes([1])` panic. -/
theorem abort_panics_when_marked_ready (k : Nat) :
    (abortTask (fun _ => doThenDoneChange) ⟨doThenDoneTasks, neverReady⟩ 0).map
      (·.ready.closed ()) = .ok true ∧
    changeAbort (k + 2) (fun _ => doThenDoneChange) ⟨doThenDoneTasks, neverReady⟩
      doThenDoneChange = .error (.unready () .undoStatus) ∧
    changeAbortLanes (k + 3) (fun _ => doThenDoneChange) ⟨doThenDoneTasks, neverReady⟩
      doThenDoneChange [1] = .error (.unready () .undoStatus) :=
  ⟨rfl, rfl, rfl⟩

-- the same tasks in the other order abort without a panic
example : (changeAbort 7 (fun _ => ⟨.defaultStatus, [1, 0]⟩) ⟨doThenDoneTasks, neverReady⟩
    ⟨.defaultStatus, [1, 0]⟩).map (fun st => ((st.tasks 0).status, (st.tasks 1).status)) =
      .ok (.holdStatus, .undoStatus) := by
  decide

end Walk

end Snapd.State
