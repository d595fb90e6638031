import Snapd.State.Change
import Snapd.Lib.Closure

/-! What `isChangeWaiting` computes. A task is blocked when it is in `DoStatus` or
`UndoStatus`, every task it depends on (those it waits for, in `DoStatus`; those waiting for it,
in `UndoStatus`) is settled or blocked, and one of them is waiting or blocked; `Blocked` is the
least predicate closed under this rule. The search of `isTaskWaiting` decides it on every graph,
cycles included: a blocked task lies on no cycle of pending dependencies, so the "not waiting"
that cuts a cycle, and that the table then remembers, is the right answer. -/

namespace Snapd.State

open TaskWaitComputeStatus Relation

variable {τ : Type} (tasks : τ → Task τ)

section Blocked

/-- The tasks that a task in `DoStatus` or `UndoStatus` is blocked by. -/
def deps (t : τ) : List τ :=
  match (tasks t).getStatus with
  | .doStatus => (tasks t).waitTasks
  | .undoStatus => (tasks t).haltTasks
  | _ => []

/-- A task with work to do: in `DoStatus` or `UndoStatus`. -/
def Pending (t : τ) : Prop :=
  (tasks t).getStatus = .doStatus ∨ (tasks t).getStatus = .undoStatus

/-- One task depends on another, which has work to do: the edges the search follows. -/
def DependsOn (a b : τ) : Prop := b ∈ deps tasks a ∧ Pending tasks b

/-- The rule for blocked tasks. -/
def blockedStep : (τ → Prop) →o (τ → Prop) where
  toFun B t := Pending tasks t ∧ (∀ d ∈ deps tasks t, (tasks d).getStatus.settled ∨ B d) ∧
    ∃ d ∈ deps tasks t, (tasks d).getStatus = .waitStatus ∨ B d
  monotone' B B' h t := by
    rintro ⟨hp, hall, d, hd, hsome⟩
    exact ⟨hp, fun e he => (hall e he).imp_right (h e), d, hd, hsome.imp_right (h d)⟩

/-- The blocked tasks: the least predicate closed under `blockedStep`. -/
def Blocked : τ → Prop := OrderHom.lfp (blockedStep tasks)

variable {tasks}

theorem blocked_iff {t : τ} : Blocked tasks t ↔ blockedStep tasks (Blocked tasks) t := by
  unfold Blocked
  rw [OrderHom.map_lfp]

theorem Blocked.le {P : τ → Prop} (h : blockedStep tasks P ≤ P) : Blocked tasks ≤ P :=
  OrderHom.lfp_le _ h

theorem Blocked.pending {t : τ} (h : Blocked tasks t) : Pending tasks t :=
  (blocked_iff.mp h).1

theorem pending_of_mem_deps {t d : τ} (hd : d ∈ deps tasks t) : Pending tasks t := by
  unfold deps at hd
  unfold Pending
  split at hd <;> simp_all

theorem not_blocked_of_not_pending {t : τ} (h : ¬ Pending tasks t) : ¬ Blocked tasks t :=
  fun hb => h hb.pending

theorem not_settled_of_pending {t : τ} (h : Pending tasks t) :
    (tasks t).getStatus.settled = false := by
  rcases h with h | h <;> rw [h] <;> rfl

theorem blocked_iff_deps {t : τ} : Blocked tasks t ↔
    (∀ d ∈ deps tasks t, (tasks d).getStatus.settled ∨ Blocked tasks d) ∧
    ∃ d ∈ deps tasks t, (tasks d).getStatus = .waitStatus ∨ Blocked tasks d := by
  rw [blocked_iff]
  constructor
  · exact fun h => h.2
  · rintro ⟨hall, d, hd, hsome⟩
    exact ⟨pending_of_mem_deps hd, hall, d, hd, hsome⟩

theorem Blocked.acc {t : τ} (h : Blocked tasks t) : Acc (Function.swap (DependsOn tasks)) t := by
  refine Closure.lfp_le_acc (blockedStep tasks) ?_ t h
  rintro P a ⟨-, hall, -⟩ b ⟨hb, hpending⟩
  rcases hall b hb with hsettled | hP
  · simp [not_settled_of_pending hpending] at hsettled
  · exact hP

theorem not_blocked_of_cycle {t : τ} (h : TransGen (DependsOn tasks) t t) : ¬ Blocked tasks t :=
  fun hb => Closure.Acc.not_transGen_self hb.acc (transGen_swap.mpr h)

theorem deps_of_doStatus {t : τ} (h : (tasks t).getStatus = .doStatus) :
    deps tasks t = (tasks t).waitTasks := by
  simp [deps, h]

theorem deps_of_undoStatus {t : τ} (h : (tasks t).getStatus = .undoStatus) :
    deps tasks t = (tasks t).haltTasks := by
  simp [deps, h]

theorem Task.getStatus_ne_defaultStatus (t : Task τ) : t.getStatus ≠ .defaultStatus := by
  unfold Task.getStatus
  split <;> simp_all

/-- `Change.Status` reaches `WaitStatus` in `statusOrder` only past the statuses of tasks with
work to do. -/
theorem find?_statusOrder_eq_waitStatus {p : Status → Bool}
    (h : statusOrder.find? p = some .waitStatus) :
    p .abortStatus = false ∧ p .undoingStatus = false ∧ p .undoStatus = false ∧
      p .doingStatus = false ∧ p .doStatus = false ∧ p .waitStatus = true := by
  simp only [statusOrder, List.find?_cons] at h
  -- one case per status of the order; only the one at `WaitStatus` answers it
  repeat' split at h
  all_goals simp_all

theorem settled_of_not_running {s : Status} (hdef : s ≠ .defaultStatus)
    (habort : s ≠ .abortStatus) (hundoing : s ≠ .undoingStatus) (hundo : s ≠ .undoStatus)
    (hdoing : s ≠ .doingStatus) (hdo : s ≠ .doStatus) : s.settled = true := by
  cases s <;> simp_all [Status.settled]

end Blocked

section Table

variable {tasks}

variable (tasks) in
/-- Every verdict in the table is right. -/
structure MemoSound (visited : Visited τ) : Prop where
  waiting : ∀ x, visited x = taskWaitStatusWaiting → Blocked tasks x
  notWaiting : ∀ x, visited x = taskWaitStatusNotWaiting → ¬ Blocked tasks x

/-- What a search leaves of the table before it: it keeps every entry that was set, and marks
no task in progress that was not. -/
structure Extends (visited visited' : Visited τ) : Prop where
  keeps : ∀ x, visited x ≠ taskWaitStatusNotComputed → visited' x = visited x
  computing : ∀ x, visited' x = taskWaitStatusComputing → visited x = taskWaitStatusComputing

theorem Extends.refl (visited : Visited τ) : Extends visited visited :=
  ⟨fun _ _ => rfl, fun _ h => h⟩

theorem Extends.trans {v₁ v₂ v₃ : Visited τ} (h₁ : Extends v₁ v₂) (h₂ : Extends v₂ v₃) :
    Extends v₁ v₃ where
  keeps x hx := by
    rw [h₂.keeps x (by rw [h₁.keeps x hx]; exact hx), h₁.keeps x hx]
  computing x hx := h₁.computing x (h₂.computing x hx)

/-- The loop at a dependency `d` with work to do, whose search answered `r`: it stops unless
`d` is blocked, and then goes on with the rest, which answers `next`. -/
theorem pendingDep_step {d : τ} {rest : List τ} {acc : Bool} {v : Visited τ}
    {r next : Bool × Visited τ} (hset : (tasks d).getStatus.settled = false)
    (hdiff : r.1 = true ↔ Blocked tasks d)
    (hdmemo : MemoSound tasks r.2) (hdext : Extends v r.2)
    (hnext : (next.1 = true ↔ (∀ e ∈ rest, (tasks e).getStatus.settled ∨ Blocked tasks e) ∧
        (true = true ∨ ∃ e ∈ rest, (tasks e).getStatus = .waitStatus ∨ Blocked tasks e)) ∧
      MemoSound tasks next.2 ∧ Extends r.2 next.2) :
    ((if r.1 = true then next else (false, r.2)).1 = true ↔
        (∀ e ∈ d :: rest, (tasks e).getStatus.settled ∨ Blocked tasks e) ∧
        (acc = true ∨ ∃ e ∈ d :: rest, (tasks e).getStatus = .waitStatus ∨ Blocked tasks e)) ∧
      MemoSound tasks (if r.1 = true then next else (false, r.2)).2 ∧
      Extends v (if r.1 = true then next else (false, r.2)).2 := by
  obtain ⟨hiff, hmemo, hext⟩ := hnext
  by_cases hr : r.1 = true
  · have hb := hdiff.mp hr
    simp only [hr, if_true]
    refine ⟨?_, hmemo, hdext.trans hext⟩
    rw [hiff]
    simp [hb]
  · have hb : ¬ Blocked tasks d := fun hb => hr (hdiff.mpr hb)
    simp only [hr]
    refine ⟨?_, hdmemo, hdext⟩
    simp [hset, hb]

section Count

variable [Fintype τ]

/-- The number of tasks the table has not seen: what bounds the search. -/
def notComputedCount (visited : Visited τ) : Nat :=
  (Finset.univ.filter fun x => visited x = taskWaitStatusNotComputed).card

theorem notComputedCount_lt_card (v : Visited τ) : notComputedCount v < Fintype.card τ + 1 :=
  Nat.lt_succ_of_le ((Finset.card_filter_le _ _).trans Finset.card_univ.le)

theorem Extends.count_le {v v' : Visited τ} (h : Extends v v') :
    notComputedCount v' ≤ notComputedCount v := by
  apply Finset.card_le_card
  intro x
  simp only [Finset.mem_filter, Finset.mem_univ, true_and]
  intro hx
  by_contra hne
  exact hne (hx ▸ h.keeps x hne).symm

end Count

section Update

variable [DecidableEq τ]

theorem notComputedCount_update [Fintype τ] {v : Visited τ} {t : τ}
    (ht : v t = taskWaitStatusNotComputed) {s : TaskWaitComputeStatus} (hs : s ≠ taskWaitStatusNotComputed) :
    notComputedCount (Function.update v t s) < notComputedCount v := by
  apply Finset.card_lt_card
  rw [Finset.ssubset_iff_of_subset]
  · exact ⟨t, by simpa using ht, by simpa using hs⟩
  · intro x
    simp only [Finset.mem_filter, Finset.mem_univ, true_and]
    intro hx
    by_cases hxt : x = t
    · subst hxt
      simp [hs] at hx
    · rwa [Function.update_of_ne hxt] at hx

theorem MemoSound.mark {v : Visited τ} (h : MemoSound tasks v) (t : τ) :
    MemoSound tasks (Function.update v t taskWaitStatusComputing) where
  waiting x hx := by
    by_cases hxt : x = t
    · subst hxt
      simp at hx
    · rw [Function.update_of_ne hxt] at hx
      exact h.waiting x hx
  notWaiting x hx := by
    by_cases hxt : x = t
    · subst hxt
      simp at hx
    · rw [Function.update_of_ne hxt] at hx
      exact h.notWaiting x hx

theorem MemoSound.record {v : Visited τ} (h : MemoSound tasks v) {t : τ} {b : Bool}
    (hb : b = true ↔ Blocked tasks t) :
    MemoSound tasks (Function.update v t
      (if b then taskWaitStatusWaiting else taskWaitStatusNotWaiting)) where
  waiting x hx := by
    by_cases hxt : x = t
    · subst hxt
      cases b <;> simp_all
    · rw [Function.update_of_ne hxt] at hx
      exact h.waiting x hx
  notWaiting x hx := by
    by_cases hxt : x = t
    · subst hxt
      cases b <;> simp_all
    · rw [Function.update_of_ne hxt] at hx
      exact h.notWaiting x hx

/-- The search of a task not yet seen: marked in progress, searched, then given its verdict, it
extends the table it started from. -/
theorem Extends.record {v v' : Visited τ} {t : τ} (ht : v t = taskWaitStatusNotComputed)
    (h : Extends (Function.update v t taskWaitStatusComputing) v') (b : Bool) :
    Extends v (Function.update v' t
      (if b then taskWaitStatusWaiting else taskWaitStatusNotWaiting)) where
  keeps x hx := by
    have hxt : x ≠ t := fun hxt => hx (hxt ▸ ht)
    rw [Function.update_of_ne hxt, h.keeps x (by rwa [Function.update_of_ne hxt]),
      Function.update_of_ne hxt]
  computing x hx := by
    by_cases hxt : x = t
    · subst hxt
      cases b <;> simp at hx
    · rw [Function.update_of_ne hxt] at hx
      simpa [Function.update_of_ne hxt] using h.computing x hx

end Update

end Table

section Search

variable {tasks} [DecidableEq τ] [Fintype τ]

variable (tasks) in
/-- What `isTaskWaiting` with `fuel` does, started on a task whose dependencies it is given, from
a right table whose tasks in progress all reach that task: it decides whether the task is
blocked, keeps the table right and extends it. -/
def SearchSpec (fuel : Nat) : Prop :=
  ∀ (v : Visited τ) (t : τ), notComputedCount v < fuel → MemoSound tasks v →
    (∀ x, v x = taskWaitStatusComputing → TransGen (DependsOn tasks) x t) →
    ((isTaskWaiting tasks fuel v t (deps tasks t)).1 = true ↔ Blocked tasks t) ∧
    MemoSound tasks (isTaskWaiting tasks fuel v t (deps tasks t)).2 ∧
    Extends v (isTaskWaiting tasks fuel v t (deps tasks t)).2

/-- The loop over the dependencies of task `y`, whose search is in progress, with every other
search in progress below it on the stack. -/
theorem depsCheck_spec {fuel : Nat} (hrec : SearchSpec tasks fuel) {y : τ} :
    ∀ (l : List τ) (v : Visited τ) (acc : Bool), (∀ d ∈ l, d ∈ deps tasks y) →
      notComputedCount v < fuel → MemoSound tasks v →
      (∀ x, v x = taskWaitStatusComputing → ReflTransGen (DependsOn tasks) x y) →
      ((depsCheck tasks (isTaskWaiting tasks fuel) v l acc).1 = true ↔
        (∀ d ∈ l, (tasks d).getStatus.settled ∨ Blocked tasks d) ∧
        (acc = true ∨ ∃ d ∈ l, (tasks d).getStatus = .waitStatus ∨ Blocked tasks d)) ∧
      MemoSound tasks (depsCheck tasks (isTaskWaiting tasks fuel) v l acc).2 ∧
      Extends v (depsCheck tasks (isTaskWaiting tasks fuel) v l acc).2
  | [], v, acc, _, _, hsound, _ => by simpa [depsCheck] using ⟨hsound, Extends.refl v⟩
  | d :: rest, v, acc, hl, hfuel, hsound, hstack => by
    have hrest : ∀ e ∈ rest, e ∈ deps tasks y := fun e he => hl e (List.mem_cons_of_mem d he)
    have hd : d ∈ deps tasks y := hl d List.mem_cons_self
    have hdown (hp : Pending tasks d) :=
      hrec v d hfuel hsound fun x hx => TransGen.tail' (hstack x hx) ⟨hd, hp⟩
    cases hs : (tasks d).getStatus with
    | waitStatus =>
      obtain ⟨hiff, hmemo, hext⟩ := depsCheck_spec hrec rest v true hrest hfuel hsound hstack
      simp only [depsCheck, hs]
      refine ⟨?_, hmemo, hext⟩
      rw [hiff]
      simp +decide [hs]
    | doneStatus | undoneStatus | errorStatus | holdStatus =>
      obtain ⟨hiff, hmemo, hext⟩ := depsCheck_spec hrec rest v acc hrest hfuel hsound hstack
      have hb : ¬ Blocked tasks d := not_blocked_of_not_pending (by simp [Pending, hs])
      simp only [depsCheck, hs]
      refine ⟨?_, hmemo, hext⟩
      rw [hiff]
      simp +decide [hs, hb]
    | doStatus =>
      obtain ⟨hdiff, hdmemo, hdext⟩ := hdown (Or.inl hs)
      rw [deps_of_doStatus hs] at hdiff hdmemo hdext
      simp only [depsCheck, hs]
      exact pendingDep_step (not_settled_of_pending (Or.inl hs)) hdiff hdmemo hdext
        (depsCheck_spec hrec rest _ true hrest (lt_of_le_of_lt hdext.count_le hfuel) hdmemo
          fun x hx => hstack x (hdext.computing x hx))
    | undoStatus =>
      obtain ⟨hdiff, hdmemo, hdext⟩ := hdown (Or.inr hs)
      rw [deps_of_undoStatus hs] at hdiff hdmemo hdext
      simp only [depsCheck, hs]
      exact pendingDep_step (not_settled_of_pending (Or.inr hs)) hdiff hdmemo hdext
        (depsCheck_spec hrec rest _ true hrest (lt_of_le_of_lt hdext.count_le hfuel) hdmemo
          fun x hx => hstack x (hdext.computing x hx))
    | defaultStatus | doingStatus | abortStatus | undoingStatus =>
      have hb : ¬ Blocked tasks d := not_blocked_of_not_pending (by simp [Pending, hs])
      simp only [depsCheck, hs]
      refine ⟨?_, hsound, Extends.refl v⟩
      simp +decide [hs, hb]

/-- Every call of `isTaskWaiting` meets `SearchSpec`: by induction on the fuel, since the search
of a task not yet seen runs the loop over its dependencies with one unit of fuel less and one
task fewer not computed. -/
theorem isTaskWaiting_spec : ∀ fuel, SearchSpec tasks fuel
  | 0 => fun _ _ hfuel => absurd hfuel (Nat.not_lt_zero _)
  | fuel + 1 => by
    intro v t hfuel hsound hstack
    cases hv : v t with
    | taskWaitStatusComputing =>
      -- `t` reaches itself through the searches in progress
      have hb := not_blocked_of_cycle (hstack t hv)
      simp only [isTaskWaiting, hv]
      exact ⟨by simp [hb], hsound, Extends.refl v⟩
    | taskWaitStatusWaiting =>
      simp only [isTaskWaiting, hv]
      exact ⟨by simp [hsound.waiting t hv], hsound, Extends.refl v⟩
    | taskWaitStatusNotWaiting =>
      simp only [isTaskWaiting, hv]
      exact ⟨by simp [hsound.notWaiting t hv], hsound, Extends.refl v⟩
    | taskWaitStatusNotComputed =>
      have hfuel₁ : notComputedCount (Function.update v t taskWaitStatusComputing) < fuel := by
        have := notComputedCount_update hv
          (by decide : taskWaitStatusComputing ≠ taskWaitStatusNotComputed)
        omega
      have hstack₁ : ∀ x, Function.update v t taskWaitStatusComputing x = taskWaitStatusComputing →
          ReflTransGen (DependsOn tasks) x t := by
        intro x hx
        by_cases hxt : x = t
        · exact hxt ▸ ReflTransGen.refl
        · rw [Function.update_of_ne hxt] at hx
          exact (hstack x hx).to_reflTransGen
      obtain ⟨hiff, hmemo, hext⟩ := depsCheck_spec (isTaskWaiting_spec fuel) (deps tasks t)
        (Function.update v t taskWaitStatusComputing) false (fun _ h => h) hfuel₁
        (hsound.mark t) hstack₁
      have hverdict : (depsCheck tasks (isTaskWaiting tasks fuel)
          (Function.update v t taskWaitStatusComputing) (deps tasks t) false).1 = true ↔
          Blocked tasks t := by
        rw [hiff, blocked_iff_deps]
        simp
      simp only [isTaskWaiting, hv]
      exact ⟨hverdict, hmemo.record hverdict, Extends.record hv hext _⟩

/-- The loop of `isChangeWaiting` at a task with work to do, given what the loop does on the
rest of the tasks from any table. -/
theorem pendingTask_step {fuel : Nat} (hrec : SearchSpec tasks fuel) {t : τ} {rest : List τ}
    {v : Visited τ} (hp : Pending tasks t) (hfuel : notComputedCount v < fuel)
    (hsound : MemoSound tasks v) (hidle : ∀ x, v x ≠ taskWaitStatusComputing)
    (ih : ∀ v' : Visited τ, notComputedCount v' < fuel → MemoSound tasks v' →
      (∀ x, v' x ≠ taskWaitStatusComputing) →
      (isChangeWaitingLoop tasks fuel v' rest = true ↔
        ∀ e ∈ rest, (tasks e).getStatus.settled ∨ Blocked tasks e)) :
    ((isTaskWaiting tasks fuel v t (deps tasks t)).1 &&
        isChangeWaitingLoop tasks fuel (isTaskWaiting tasks fuel v t (deps tasks t)).2 rest) =
        true ↔
      ∀ e ∈ t :: rest, (tasks e).getStatus.settled ∨ Blocked tasks e := by
  obtain ⟨hiff, hmemo, hext⟩ := hrec v t hfuel hsound fun x hx => absurd hx (hidle x)
  rw [Bool.and_eq_true, hiff, ih _ (lt_of_le_of_lt hext.count_le hfuel) hmemo
    fun x hx => hidle x (hext.computing x hx)]
  simp [not_settled_of_pending hp]

/-- The loop of `isChangeWaiting`, from a right table with no search in progress, decides
whether every task is settled or blocked. -/
theorem isChangeWaitingLoop_spec {fuel : Nat} (hrec : SearchSpec tasks fuel) :
    ∀ (l : List τ) (v : Visited τ), notComputedCount v < fuel → MemoSound tasks v →
      (∀ x, v x ≠ taskWaitStatusComputing) →
      (isChangeWaitingLoop tasks fuel v l = true ↔
        ∀ t ∈ l, (tasks t).getStatus.settled ∨ Blocked tasks t)
  | [], _, _, _, _ => by simp [isChangeWaitingLoop]
  | t :: rest, v, hfuel, hsound, hidle => by
    have ih := isChangeWaitingLoop_spec hrec rest
    cases hs : (tasks t).getStatus with
    | waitStatus | doneStatus | undoneStatus | errorStatus | holdStatus =>
      simp only [isChangeWaitingLoop, hs]
      rw [ih v hfuel hsound hidle]
      simp +decide [hs]
    | doStatus =>
      simp only [isChangeWaitingLoop, hs]
      rw [← deps_of_doStatus hs]
      exact pendingTask_step hrec (Or.inl hs) hfuel hsound hidle ih
    | undoStatus =>
      simp only [isChangeWaitingLoop, hs]
      rw [← deps_of_undoStatus hs]
      exact pendingTask_step hrec (Or.inr hs) hfuel hsound hidle ih
    | defaultStatus | doingStatus | abortStatus | undoingStatus =>
      have hb : ¬ Blocked tasks t := not_blocked_of_not_pending (by simp [Pending, hs])
      simp only [isChangeWaitingLoop, hs]
      simp +decide [hs, hb]

theorem isChangeWaiting_iff (c : Change τ) :
    isChangeWaiting tasks c = true ↔
      ∀ t ∈ c.taskIDs, (tasks t).getStatus.settled ∨ Blocked tasks t :=
  isChangeWaitingLoop_spec (isTaskWaiting_spec _) c.taskIDs _ (notComputedCount_lt_card _)
    ⟨by simp, by simp⟩ (by simp)

end Search

section Status

variable {tasks} [DecidableEq τ] [Fintype τ]

/-- `Change.Status`, with no status set, is `WaitStatus` exactly when a task is in `WaitStatus`
and every task is settled or blocked. -/
theorem getStatus_eq_waitStatus_iff {c : Change τ} (hc : c.status = .defaultStatus) :
    c.getStatus tasks = some .waitStatus ↔
      (∃ t ∈ c.taskIDs, (tasks t).getStatus = .waitStatus) ∧
      ∀ t ∈ c.taskIDs, (tasks t).getStatus.settled ∨ Blocked tasks t := by
  have hcount (s : Status) : 0 < (c.taskIDs.map fun tid => (tasks tid).getStatus).count s ↔
      ∃ t ∈ c.taskIDs, (tasks t).getStatus = s := by
    simp [List.count_pos_iff]
  rw [← isChangeWaiting_iff]
  unfold Change.getStatus
  simp only [hc, ne_eq, not_true_eq_false, if_false]
  by_cases hnil : c.taskIDs = []
  · simp [hnil]
  rw [if_neg hnil]
  by_cases hw : (∃ t ∈ c.taskIDs, (tasks t).getStatus = .waitStatus) ∧ isChangeWaiting tasks c = true
  · rw [if_pos (by simpa [hcount] using hw)]
    simpa using hw
  · rw [if_neg (by simpa [hcount] using hw)]
    simp only [hw, iff_false]
    intro hfind
    -- the order search passed every status with work to do: all tasks are settled
    have hstats := find?_statusOrder_eq_waitStatus hfind
    simp only [decide_eq_false_iff_not, decide_eq_true_eq, hcount, not_exists, not_and] at hstats
    obtain ⟨habort, hundoing, hundo, hdoing, hdo, hwait⟩ := hstats
    apply hw
    refine ⟨hwait, (isChangeWaiting_iff c).mpr fun t ht => Or.inl ?_⟩
    exact settled_of_not_running (Task.getStatus_ne_defaultStatus _) (habort t ht)
      (hundoing t ht) (hundo t ht) (hdoing t ht) (hdo t ht)

end Status

section Order

variable {tasks tasks' : τ → Task τ}

theorem getStatus_congr (hstatus : ∀ t, (tasks' t).status = (tasks t).status) (t : τ) :
    (tasks' t).getStatus = (tasks t).getStatus := by
  simp [Task.getStatus, hstatus]

theorem mem_deps_congr (hstatus : ∀ t, (tasks' t).status = (tasks t).status)
    (hwait : ∀ t, (tasks' t).waitTasks.Perm (tasks t).waitTasks)
    (hhalt : ∀ t, (tasks' t).haltTasks.Perm (tasks t).haltTasks) (t d : τ) :
    d ∈ deps tasks' t ↔ d ∈ deps tasks t := by
  unfold deps
  rw [getStatus_congr hstatus]
  split
  · exact (hwait t).mem_iff
  · exact (hhalt t).mem_iff
  · rfl

theorem blocked_congr (hstatus : ∀ t, (tasks' t).status = (tasks t).status)
    (hwait : ∀ t, (tasks' t).waitTasks.Perm (tasks t).waitTasks)
    (hhalt : ∀ t, (tasks' t).haltTasks.Perm (tasks t).haltTasks) :
    Blocked tasks' = Blocked tasks := by
  unfold Blocked
  apply Closure.lfp_congr
  intro P t
  simp only [blockedStep, OrderHom.coe_mk, Pending, getStatus_congr hstatus,
    mem_deps_congr hstatus hwait hhalt]

theorem isChangeWaiting_congr [DecidableEq τ] [Fintype τ]
    (hstatus : ∀ t, (tasks' t).status = (tasks t).status)
    (hwait : ∀ t, (tasks' t).waitTasks.Perm (tasks t).waitTasks)
    (hhalt : ∀ t, (tasks' t).haltTasks.Perm (tasks t).haltTasks) {c c' : Change τ}
    (hc : c'.taskIDs.Perm c.taskIDs) : isChangeWaiting tasks' c' = isChangeWaiting tasks c := by
  apply Bool.eq_iff_iff.mpr
  rw [isChangeWaiting_iff, isChangeWaiting_iff, blocked_congr hstatus hwait hhalt]
  simp only [getStatus_congr hstatus, hc.mem_iff]

end Order

/-- `Change.Status` with no status set is `WaitStatus` exactly when some task is in
`WaitStatus` and every task is settled or a blocked task in `DoStatus` or `UndoStatus`, on every
graph of waits, cycles included; and what `isChangeWaiting` answers depends neither on the order
of the change's tasks nor on that of any wait or halt list. -/
theorem change_status_wait_iff_blocked [DecidableEq τ] [Fintype τ] :
    (∀ (tasks : τ → Task τ) (c : Change τ), c.status = .defaultStatus →
      (c.getStatus tasks = some .waitStatus ↔
        (∃ t ∈ c.taskIDs, (tasks t).getStatus = .waitStatus) ∧
        ∀ t ∈ c.taskIDs, (tasks t).getStatus.settled ∨ Blocked tasks t)) ∧
    ∀ (tasks tasks' : τ → Task τ) (c c' : Change τ),
      (∀ t, (tasks' t).status = (tasks t).status) →
      (∀ t, (tasks' t).waitTasks.Perm (tasks t).waitTasks) →
      (∀ t, (tasks' t).haltTasks.Perm (tasks t).haltTasks) →
      c'.taskIDs.Perm c.taskIDs → isChangeWaiting tasks' c' = isChangeWaiting tasks c :=
  ⟨fun _ _ hc => getStatus_eq_waitStatus_iff hc,
    fun _ _ _ _ hstatus hwait hhalt hc => isChangeWaiting_congr hstatus hwait hhalt hc⟩

/-- The tasks of the change in `TestIsWaitingCircularDependency` at its third check: `task1`
(0) waits for `task3` (2), `task2` (1) for `task1`, `task3` for `task2`; `task1` is done, `task2`
is in `WaitStatus`, `task3` still to do, and `wait-task` (3) is in `WaitStatus`. -/
def circularTasks : Fin 4 → Task (Fin 4)
  | 0 => ⟨.doneStatus, [2], [1]⟩
  | 1 => ⟨.waitStatus, [0], [2]⟩
  | 2 => ⟨.defaultStatus, [1], [0]⟩
  | 3 => ⟨.waitStatus, [], []⟩

/-- The change of `TestIsWaitingCircularDependency`, with no status set. -/
def circularChange : Change (Fin 4) := ⟨.defaultStatus, [0, 1, 2, 3]⟩

example : circularChange.getStatus circularTasks = some .waitStatus := by decide

/-- The three tasks of the cycle all still to do: the search cuts the cycle and the change is
in `DoStatus`. -/
example : circularChange.getStatus (fun t => { circularTasks t with status := .defaultStatus }) =
    some .doStatus := by decide

theorem change_status_wait_iff_blocked_on_circular_dependency :
    (circularChange.getStatus circularTasks = some .waitStatus ↔
      (∃ t ∈ circularChange.taskIDs, (circularTasks t).getStatus = .waitStatus) ∧
      ∀ t ∈ circularChange.taskIDs, (circularTasks t).getStatus.settled ∨
        Blocked circularTasks t) ∧
    isChangeWaiting circularTasks ⟨.defaultStatus, [3, 2, 1, 0]⟩ =
      isChangeWaiting circularTasks circularChange :=
  ⟨change_status_wait_iff_blocked.1 circularTasks circularChange rfl,
    change_status_wait_iff_blocked.2 circularTasks circularTasks circularChange
      ⟨.defaultStatus, [3, 2, 1, 0]⟩ (fun _ => rfl) (fun _ => List.Perm.refl _)
      (fun _ => List.Perm.refl _) (by decide)⟩

end Snapd.State
