import Snapd.State.AbortClosure
import Mathlib.Data.List.Sort

/-! Pruning the state (overlord/state/state.go, change.go): `State.Prune` removes the changes
that became ready too long ago, or too many ready changes from the oldest on, with their tasks,
and the empty changes that never became ready; it asks older unready changes to abort their
unready lanes, with the abort of `Snapd.State.Abort`, which may mark a change ready or panic.
The loop reads each change's ready time when it comes to it, after the aborts before it. Times
are integers; a zero time, which sorts before every other, is `none`; the clock `markReady` reads
while `Prune` runs is `now`. The maps `changes` and `tasks` of `State` are their keys and what
each key holds. `s.Changes()` lists the changes in map order, which `sort.Sort` then orders by
ready time; the model sorts with `mergeSort`, so every order sorted by ready time can come out of
some order of the keys. Warnings and notices, which `Prune` also prunes, and the notifications of
status changes are left out. -/

namespace Snapd.State

/-- The maps `changes` and `tasks` of a `State`, as their keys and the fields of each change and
task that `Prune` reads or writes: a change's status and tasks, whether its `Ready` channel is
closed, its ready and spawn times; a task's runner fields and spawn time. -/
structure StateRecord (τ χ : Type) where
  changeKeys : List χ
  changes : χ → Change τ
  ready : χ → Bool
  readyTime : χ → Option Int
  spawnTime : χ → Int
  taskKeys : List τ
  tasks : τ → RunnerTask τ χ
  taskSpawnTime : τ → Int

/-- How `Prune` panics: in the abort of a change's unready lanes, where it may also run out of
fuel, or on a ready change that lists a task the state lacks, whose `t.ID()` reads `nil`. -/
inductive PruneFault (χ : Type) where
  | abort (fault : AbortFault χ)
  | nilTask (c : χ)
  deriving DecidableEq, Repr

/-- `time.Before` on ready times. -/
def readyBefore : Option Int → Option Int → Bool
  | none, some _ => true
  | some a, some b => decide (a < b)
  | _, none => false

/-- The order `sort.Sort(byReadyTime(...))` leaves: no change becomes ready before one in front
of it. -/
def byReadyTime {χ : Type} (readyTime : χ → Option Int) (a b : χ) : Bool :=
  !readyBefore (readyTime b) (readyTime a)

/-- `readyChangesCount`: the changes at the end of the sorted list that have a ready time. -/
def readyChangesCount {χ : Type} (readyTime : χ → Option Int) (changes : List χ) : Nat :=
  (changes.reverse.takeWhile fun c => (readyTime c).isSome).length

/-- What the loop of `Prune` over the changes carries: the state and `readyChangesCount`. -/
structure PruneAcc (τ χ : Type) where
  state : StateRecord τ χ
  readyChangesCount : Int

variable {τ χ : Type}

namespace StateRecord

/-- `delete(s.changes, chg.ID())`. -/
def deleteChange [DecidableEq χ] (s : StateRecord τ χ) (c : χ) : StateRecord τ χ :=
  { s with changeKeys := s.changeKeys.filter (· ≠ c) }

/-- `delete(s.tasks, t.ID())` for each task of a change. -/
def deleteTasks [DecidableEq τ] (s : StateRecord τ χ) (ids : List τ) : StateRecord τ χ :=
  { s with taskKeys := s.taskKeys.filter (· ∉ ids) }

/-- The tasks and ready state an abort starts from, with the clock at `now`. -/
def abortState (s : StateRecord τ χ) (now : Int) : AbortState τ χ :=
  ⟨s.tasks, ⟨s.ready, s.readyTime, now⟩⟩

/-- The state with the tasks and ready state an abort left. -/
def withAbort (s : StateRecord τ χ) (st : AbortState τ χ) : StateRecord τ χ :=
  { s with tasks := st.tasks, ready := st.ready.closed, readyTime := st.ready.readyTime }

/-- `lanesWithLiveTasks` of `abortUnreadyLanes`: the lanes of the change's tasks that are not
ready. The code collects them as the keys of a map, in map order; `abortLanes` only asks whether
a lane is one of them, so this list, which may repeat them, is as good. -/
def unreadyLanes (s : StateRecord τ χ) (c : χ) : List Int :=
  (s.changes c).taskIDs.flatMap fun tid =>
    if (s.tasks tid).getStatus.ready then [] else (s.tasks tid).getLanes

/-- `Change.AbortUnreadyLanes`, with `fuel` for the abort and the clock at `now`. -/
def abortUnreadyLanes [DecidableEq τ] [DecidableEq χ] (s : StateRecord τ χ) (fuel : Nat)
    (now : Int) (c : χ) : Except (AbortFault χ) (StateRecord τ χ) :=
  (changeAbortLanes fuel s.changes (s.abortState now) (s.changes c) (s.unreadyLanes c)).map
    s.withAbort

/-- The last loop of `Prune`: the tasks whose change is not in the state and that were spawned
before `pruneLimit` go. -/
def pruneUnlinkedTasks [DecidableEq χ] (s : StateRecord τ χ) (pruneLimit : Int) :
    StateRecord τ χ :=
  { s with taskKeys := s.taskKeys.filter fun u =>
      decide ((s.tasks u).change ∈ s.changeKeys) || !decide (s.taskSpawnTime u < pruneLimit) }

end StateRecord

section Prune

variable [DecidableEq τ] [DecidableEq χ] (fuel : Nat)
  (now startOfOperation pruneLimit abortLimit maxReadyChanges : Int)
  (pending : StateRecord τ χ → χ → Bool)

/-- One turn of the loop of `Prune`, on the change `c`, with its ready time as it is by then;
`pending` says whether a predicate registered with `RegisterPendingChangeByAttr` for one of the
change's attributes holds of it. -/
def pruneChange (acc : PruneAcc τ χ) (c : χ) : Except (PruneFault χ) (PruneAcc τ χ) :=
  let s := acc.state
  let spawnTime := if s.spawnTime c < startOfOperation then startOfOperation else s.spawnTime c
  match s.readyTime c with
  | none =>
    if spawnTime < pruneLimit ∧ (s.changes c).taskIDs = [] then
      -- `chg.Abort()` on a change without tasks changes nothing
      .ok { acc with state := s.deleteChange c }
    else if spawnTime < abortLimit then
      if pending s c then .ok acc
      else
        match s.abortUnreadyLanes fuel now c with
        | .ok s' => .ok { acc with state := s' }
        | .error e => .error (.abort e)
    else .ok acc
  | some readyTime =>
    if readyTime < pruneLimit ∨ acc.readyChangesCount > maxReadyChanges then
      -- `chg.Tasks()` holds `nil` for an ID the state has no task of, and `t.ID()` panics on it
      if (s.changes c).taskIDs.all fun u => decide (u ∈ s.taskKeys) then
        .ok ⟨(s.deleteTasks (s.changes c).taskIDs).deleteChange c, acc.readyChangesCount - 1⟩
      else .error (.nilTask c)
    else .ok acc

/-- The loop of `Prune` over the sorted changes. -/
def pruneChanges : PruneAcc τ χ → List χ → Except (PruneFault χ) (PruneAcc τ χ)
  | acc, [] => .ok acc
  | acc, c :: rest =>
    (pruneChange fuel now startOfOperation pruneLimit abortLimit maxReadyChanges pending acc c).bind
      fun acc => pruneChanges acc rest

end Prune

/-- `State.Prune` at time `now`, with `fuel` for each abort it makes. -/
def StateRecord.prune [DecidableEq τ] [DecidableEq χ] (s : StateRecord τ χ) (fuel : Nat)
    (now startOfOperation pruneWait abortWait maxReadyChanges : Int)
    (pending : StateRecord τ χ → χ → Bool) : Except (PruneFault χ) (StateRecord τ χ) :=
  let pruneLimit := now - pruneWait
  let abortLimit := now - abortWait
  let changes := s.changeKeys.mergeSort (byReadyTime s.readyTime)
  (pruneChanges fuel now startOfOperation pruneLimit abortLimit maxReadyChanges pending
    ⟨s, readyChangesCount s.readyTime changes⟩ changes).map
    fun acc => acc.state.pruneUnlinkedTasks pruneLimit

/-- What the maps of a `State` keep: one change per key; every task a change lists is in the
state and belongs to it, since `AddTask` panics on a task another change holds; and every task a
task halts is in the state. -/
structure StateRecord.WellFormed (s : StateRecord τ χ) : Prop where
  nodup : s.changeKeys.Nodup
  present : ∀ c ∈ s.changeKeys, ∀ u ∈ (s.changes c).taskIDs, u ∈ s.taskKeys
  linked : ∀ c ∈ s.changeKeys, ∀ u ∈ (s.changes c).taskIDs, (s.tasks u).change = c
  halts : ∀ u ∈ s.taskKeys, ∀ h ∈ (s.tasks u).haltTasks, h ∈ s.taskKeys

/-- A task waits only for tasks of its own change: the tasks a task halts are of its change. -/
def StateRecord.WaitsWithinChange (s : StateRecord τ χ) : Prop :=
  ∀ u ∈ s.taskKeys, ∀ h ∈ (s.tasks u).haltTasks, (s.tasks h).change = (s.tasks u).change

namespace StateRecord

section Maps

variable {s : StateRecord τ χ} {c x : χ} {u : τ} {ids : List τ} {st : AbortState τ χ}

@[simp] theorem withAbort_changeKeys : (s.withAbort st).changeKeys = s.changeKeys := rfl
@[simp] theorem withAbort_taskKeys : (s.withAbort st).taskKeys = s.taskKeys := rfl
@[simp] theorem withAbort_changes : (s.withAbort st).changes = s.changes := rfl
@[simp] theorem withAbort_spawnTime : (s.withAbort st).spawnTime = s.spawnTime := rfl
@[simp] theorem withAbort_tasks : (s.withAbort st).tasks = st.tasks := rfl
@[simp] theorem withAbort_readyTime : (s.withAbort st).readyTime = st.ready.readyTime := rfl

section Changes

variable [DecidableEq χ]

@[simp] theorem mem_deleteChange_changeKeys : x ∈ (s.deleteChange c).changeKeys ↔
    x ∈ s.changeKeys ∧ x ≠ c := by
  simp [deleteChange]

@[simp] theorem deleteChange_taskKeys : (s.deleteChange c).taskKeys = s.taskKeys := rfl
@[simp] theorem deleteChange_changes : (s.deleteChange c).changes = s.changes := rfl
@[simp] theorem deleteChange_readyTime : (s.deleteChange c).readyTime = s.readyTime := rfl
@[simp] theorem deleteChange_spawnTime : (s.deleteChange c).spawnTime = s.spawnTime := rfl
@[simp] theorem deleteChange_tasks : (s.deleteChange c).tasks = s.tasks := rfl

theorem mem_pruneUnlinkedTasks_taskKeys {pruneLimit : Int} :
    u ∈ (s.pruneUnlinkedTasks pruneLimit).taskKeys ↔
      u ∈ s.taskKeys ∧
        ((s.tasks u).change ∈ s.changeKeys ∨ pruneLimit ≤ s.taskSpawnTime u) := by
  simp [pruneUnlinkedTasks]

@[simp] theorem pruneUnlinkedTasks_changeKeys {pruneLimit : Int} :
    (s.pruneUnlinkedTasks pruneLimit).changeKeys = s.changeKeys := rfl
@[simp] theorem pruneUnlinkedTasks_readyTime {pruneLimit : Int} :
    (s.pruneUnlinkedTasks pruneLimit).readyTime = s.readyTime := rfl
@[simp] theorem pruneUnlinkedTasks_tasks {pruneLimit : Int} :
    (s.pruneUnlinkedTasks pruneLimit).tasks = s.tasks := rfl

end Changes

section Tasks

variable [DecidableEq τ]

@[simp] theorem mem_deleteTasks_taskKeys : u ∈ (s.deleteTasks ids).taskKeys ↔
    u ∈ s.taskKeys ∧ u ∉ ids := by
  simp [deleteTasks]

@[simp] theorem deleteTasks_changeKeys : (s.deleteTasks ids).changeKeys = s.changeKeys := rfl
@[simp] theorem deleteTasks_changes : (s.deleteTasks ids).changes = s.changes := rfl
@[simp] theorem deleteTasks_readyTime : (s.deleteTasks ids).readyTime = s.readyTime := rfl
@[simp] theorem deleteTasks_spawnTime : (s.deleteTasks ids).spawnTime = s.spawnTime := rfl
@[simp] theorem deleteTasks_tasks : (s.deleteTasks ids).tasks = s.tasks := rfl

end Tasks

variable [DecidableEq τ] [DecidableEq χ]

/-- The state after the ready changes `xs` were deleted one after the other with their tasks. -/
def removeChanges (s : StateRecord τ χ) : List χ → StateRecord τ χ
  | [] => s
  | c :: rest => ((s.deleteTasks (s.changes c).taskIDs).deleteChange c).removeChanges rest

theorem mem_removeChanges_changeKeys {xs : List χ} :
    x ∈ (s.removeChanges xs).changeKeys ↔ x ∈ s.changeKeys ∧ x ∉ xs := by
  induction xs generalizing s with
  | nil => simp [removeChanges]
  | cons y xs ih => simp [removeChanges, ih, and_assoc]

theorem mem_removeChanges_taskKeys {xs : List χ} :
    u ∈ (s.removeChanges xs).taskKeys ↔
      u ∈ s.taskKeys ∧ ∀ y ∈ xs, u ∉ (s.changes y).taskIDs := by
  induction xs generalizing s with
  | nil => simp [removeChanges]
  | cons y xs ih => simp [removeChanges, ih, and_assoc]

theorem removeChanges_changeKeys_sublist (xs : List χ) :
    (s.removeChanges xs).changeKeys.Sublist s.changeKeys := by
  induction xs generalizing s with
  | nil => exact List.Sublist.refl _
  | cons y xs ih => exact ih.trans List.filter_sublist

@[simp] theorem removeChanges_changes (xs : List χ) :
    (s.removeChanges xs).changes = s.changes := by
  induction xs generalizing s with
  | nil => rfl
  | cons y xs ih => exact ih

@[simp] theorem removeChanges_readyTime (xs : List χ) :
    (s.removeChanges xs).readyTime = s.readyTime := by
  induction xs generalizing s with
  | nil => rfl
  | cons y xs ih => exact ih

@[simp] theorem removeChanges_tasks (xs : List χ) : (s.removeChanges xs).tasks = s.tasks := by
  induction xs generalizing s with
  | nil => rfl
  | cons y xs ih => exact ih

end Maps

theorem WellFormed.eq_of_mem_taskIDs {s : StateRecord τ χ} (hs : s.WellFormed) {c d : χ} {u : τ}
    (hc : c ∈ s.changeKeys) (hd : d ∈ s.changeKeys) (hu : u ∈ (s.changes c).taskIDs)
    (hu' : u ∈ (s.changes d).taskIDs) : c = d :=
  (hs.linked c hc u hu).symm.trans (hs.linked d hd u hu')

/-- The tasks of the change `c` in the state, closed under `haltTasks` when tasks wait only
within their change, and still so once aborts have changed statuses. -/
theorem withinChange {s : StateRecord τ χ} (hs : s.WellFormed) (hw : s.WaitsWithinChange) (c : χ)
    {tasks : τ → RunnerTask τ χ} (h : AbortsOnly s.tasks tasks) :
    WithinChange (fun u => u ∈ s.taskKeys ∧ (s.tasks u).change = c) c tasks := by
  intro u ⟨hu, hc⟩
  rw [(h.change_haltTasks u).1, (h.change_haltTasks u).2]
  exact ⟨hc, fun t ht => ⟨hs.halts u hu t ht, (hw u hu t ht).trans hc⟩⟩

end StateRecord

section Sorted

variable {χ : Type} {readyTime : χ → Option Int} {a b : χ} {l : List χ}

theorem byReadyTime_trans (readyTime : χ → Option Int) (a b c : χ) :
    byReadyTime readyTime a b = true → byReadyTime readyTime b c = true →
      byReadyTime readyTime a c = true := by
  unfold byReadyTime
  cases readyTime a <;> cases readyTime b <;> cases readyTime c <;> simp [readyBefore]
  omega

theorem byReadyTime_total (readyTime : χ → Option Int) (a b : χ) :
    (byReadyTime readyTime a b || byReadyTime readyTime b a) = true := by
  unfold byReadyTime
  cases readyTime a <;> cases readyTime b <;> simp [readyBefore]
  omega

theorem le_of_byReadyTime {t u : Int} (ha : readyTime a = some t) (hb : readyTime b = some u)
    (h : byReadyTime readyTime a b = true) : t ≤ u := by
  simp [byReadyTime, ha, hb, readyBefore] at h
  exact h

theorem isSome_of_byReadyTime (ha : (readyTime a).isSome = true)
    (h : byReadyTime readyTime a b = true) : (readyTime b).isSome = true := by
  unfold byReadyTime at h
  cases hb : readyTime b with
  | some _ => rfl
  | none => cases hat : readyTime a <;> simp_all [readyBefore]

theorem eq_unready_append_ready (h : l.Pairwise fun a b => byReadyTime readyTime a b = true) :
    l = l.filter (fun c => !(readyTime c).isSome) ++ l.filter fun c => (readyTime c).isSome := by
  induction l with
  | nil => rfl
  | cons x l ih =>
    obtain ⟨hx, hl⟩ := List.pairwise_cons.mp h
    by_cases hr : (readyTime x).isSome = true
    · -- a ready change is followed by ready changes only
      have hall : ∀ y ∈ l, (readyTime y).isSome = true := fun y hy =>
        isSome_of_byReadyTime hr (hx y hy)
      have hnone : l.filter (fun c => !(readyTime c).isSome) = [] :=
        List.filter_eq_nil_iff.mpr fun y hy => by simp [hall y hy]
      rw [List.filter_cons, List.filter_cons, if_neg (by simp [hr]), if_pos hr, hnone,
        List.filter_eq_self.mpr hall, List.nil_append]
    · rw [List.filter_cons, List.filter_cons, if_pos (by simpa using hr), if_neg hr,
        List.cons_append, ← ih hl]

theorem readyChangesCount_eq (h : l.Pairwise fun a b => byReadyTime readyTime a b = true) :
    readyChangesCount readyTime l = (l.filter fun c => (readyTime c).isSome).length := by
  unfold readyChangesCount
  conv_lhs => rw [eq_unready_append_ready h]
  rw [List.reverse_append, List.takeWhile_append_of_pos (by simp)]
  -- the count stops at the last change that never became ready
  have hstop : ∀ zs : List χ, (∀ z ∈ zs, (readyTime z).isSome = false) →
      zs.takeWhile (fun c => (readyTime c).isSome) = [] := by
    intro zs hzs
    cases zs with
    | nil => rfl
    | cons z zs => rw [List.takeWhile_cons_of_neg (by simp [hzs z (List.mem_cons_self ..)])]
  rw [hstop _ (by simp), List.append_nil, List.length_reverse]

end Sorted

section Order

variable [DecidableEq τ] [DecidableEq χ] {s : StateRecord τ χ} {c : χ}

/-- The changes with a ready time, in the order `Prune` visits them. -/
def readyChanges (s : StateRecord τ χ) : List χ :=
  (s.changeKeys.mergeSort (byReadyTime s.readyTime)).filter fun c => (s.readyTime c).isSome

/-- The changes without a ready time, in the order `Prune` visits them. -/
def unreadyChanges (s : StateRecord τ χ) : List χ :=
  (s.changeKeys.mergeSort (byReadyTime s.readyTime)).filter fun c => !(s.readyTime c).isSome

omit [DecidableEq τ] [DecidableEq χ] in
theorem mergeSort_byReadyTime_sorted (s : StateRecord τ χ) :
    (s.changeKeys.mergeSort (byReadyTime s.readyTime)).Pairwise
      fun a b => byReadyTime s.readyTime a b = true :=
  List.pairwise_mergeSort (byReadyTime_trans _) (byReadyTime_total _) _

omit [DecidableEq τ] [DecidableEq χ] in
theorem mem_readyChanges :
    c ∈ readyChanges s ↔ c ∈ s.changeKeys ∧ (s.readyTime c).isSome := by
  simp [readyChanges, (List.mergeSort_perm s.changeKeys _).mem_iff]

omit [DecidableEq τ] [DecidableEq χ] in
theorem mem_unreadyChanges :
    c ∈ unreadyChanges s ↔ c ∈ s.changeKeys ∧ s.readyTime c = none := by
  simp [unreadyChanges, (List.mergeSort_perm s.changeKeys _).mem_iff]

omit [DecidableEq τ] [DecidableEq χ] in
theorem readyChanges_sorted (s : StateRecord τ χ) :
    (readyChanges s).Pairwise fun a b => byReadyTime s.readyTime a b = true :=
  (mergeSort_byReadyTime_sorted s).sublist List.filter_sublist

omit [DecidableEq τ] [DecidableEq χ] in
theorem mergeSort_changeKeys_nodup (hs : s.changeKeys.Nodup) :
    (s.changeKeys.mergeSort (byReadyTime s.readyTime)).Nodup :=
  (List.mergeSort_perm s.changeKeys _).nodup_iff.mpr hs

omit [DecidableEq τ] [DecidableEq χ] in
theorem readyChanges_nodup (hs : s.changeKeys.Nodup) : (readyChanges s).Nodup :=
  (mergeSort_changeKeys_nodup hs).sublist List.filter_sublist

omit [DecidableEq τ] [DecidableEq χ] in
theorem unreadyChanges_nodup (hs : s.changeKeys.Nodup) : (unreadyChanges s).Nodup :=
  (mergeSort_changeKeys_nodup hs).sublist List.filter_sublist

/-- `Prune` walks the changes that never became ready, then the ready ones in order, counting
all the ready ones. -/
theorem prune_eq (s : StateRecord τ χ) (fuel : Nat)
    (now startOfOperation pruneWait abortWait maxReadyChanges : Int)
    (pending : StateRecord τ χ → χ → Bool) :
    s.prune fuel now startOfOperation pruneWait abortWait maxReadyChanges pending =
      (pruneChanges fuel now startOfOperation (now - pruneWait) (now - abortWait) maxReadyChanges
          pending ⟨s, (readyChanges s).length⟩ (unreadyChanges s ++ readyChanges s)).map
        fun acc => acc.state.pruneUnlinkedTasks (now - pruneWait) := by
  have hsorted := mergeSort_byReadyTime_sorted s
  unfold StateRecord.prune
  dsimp only
  rw [readyChangesCount_eq hsorted]
  congr 2
  exact eq_unready_append_ready hsorted

end Order

section Loop

variable [DecidableEq τ] [DecidableEq χ] (fuel : Nat)
  (now startOfOperation pruneLimit abortLimit maxReadyChanges : Int)
  (pending : StateRecord τ χ → χ → Bool)

theorem pruneChanges_append (l₁ l₂ : List χ) (acc : PruneAcc τ χ) :
    pruneChanges fuel now startOfOperation pruneLimit abortLimit maxReadyChanges pending acc
        (l₁ ++ l₂) =
      (pruneChanges fuel now startOfOperation pruneLimit abortLimit maxReadyChanges pending acc
        l₁).bind fun acc => pruneChanges fuel now startOfOperation pruneLimit abortLimit
          maxReadyChanges pending acc l₂ := by
  induction l₁ generalizing acc with
  | nil => rfl
  | cons x l₁ ih =>
    simp only [List.cons_append, pruneChanges]
    cases pruneChange fuel now startOfOperation pruneLimit abortLimit maxReadyChanges pending acc x
      with
    | error e => rfl
    | ok acc' => exact ih acc'

end Loop

end Snapd.State
