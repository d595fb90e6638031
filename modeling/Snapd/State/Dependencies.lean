import Snapd.Lib.Closure
import Snapd.Lib.Worklist
import Mathlib.Data.String.Basic
import Mathlib.Data.List.Sort
import Mathlib.Algebra.GroupWithZero.Nat

/-! Checking a change's task graph for cycles (overlord/state/change.go,
`CheckTaskDependencies`): Kahn's topological sort over the tasks, counting for each task the
tasks it waits for that are not yet visited, and reporting the tasks whose count never drops to
zero. The map `predecessors` is an association list with one entry per key, as a Go map holds;
`sort.Strings` is an insertion sort, which orders distinct strings as any sort does. -/

namespace Snapd.State

open Relation

/-- The fields of a `Task` that `CheckTaskDependencies` reads. -/
structure DepTask where
  id : String
  kind : String
  waitTasks : List String
  haltTasks : List String
  deriving DecidableEq, Repr

structure TaskDependencyCycleError where
  ids : List String
  msg : String
  deriving DecidableEq, Repr

/-- A Go `map[string]int`: each key once, a missing key reading as `0`. -/
abbrev CountMap := List (String × Int)

namespace CountMap

def get (m : CountMap) (k : String) : Int := (m.lookup k).getD 0

/-- `delete(m, k)`. -/
def erase (m : CountMap) (k : String) : CountMap := m.filter fun e => e.1 ≠ k

/-- `m[k] = v`. -/
def set (m : CountMap) (k : String) (v : Int) : CountMap := (k, v) :: m.erase k

def keys (m : CountMap) : List String := m.map Prod.fst

section CountMapLemmas

variable {m : CountMap} {k x : String} {v : Int}

theorem lookup_cons_ite (k' : String) (v' : Int) :
    List.lookup x ((k', v') :: m) = if x = k' then some v' else List.lookup x m := by
  rw [List.lookup_cons]
  split <;> simp_all

theorem get_cons (k' : String) (v' : Int) :
    get ((k', v') :: m) x = if x = k' then v' else m.get x := by
  unfold get
  rw [lookup_cons_ite]
  split <;> rfl

theorem get_erase : (m.erase k).get x = if x = k then 0 else m.get x := by
  induction m with
  | nil => simp [get, erase]
  | cons e m ih =>
    obtain ⟨k', v'⟩ := e
    unfold erase at *
    by_cases hk : k' = k
    · subst hk
      rw [List.filter_cons_of_neg (by simp), ih, get_cons]
      split <;> simp_all
    · rw [List.filter_cons_of_pos (by simpa using hk), get_cons, ih, get_cons]
      split <;> split <;> simp_all

theorem get_set : (m.set k v).get x = if x = k then v else m.get x := by
  unfold set
  rw [get_cons, get_erase]
  split <;> simp_all

theorem mem_keys_erase : x ∈ (m.erase k).keys ↔ x ∈ m.keys ∧ x ≠ k := by
  simp only [keys, erase, List.mem_map, List.mem_filter]
  constructor
  · rintro ⟨e, ⟨he, hne⟩, rfl⟩
    exact ⟨⟨e, he, rfl⟩, by simpa using hne⟩
  · rintro ⟨⟨e, he, rfl⟩, hne⟩
    exact ⟨e, ⟨he, by simpa using hne⟩, rfl⟩

theorem mem_keys_set : x ∈ (m.set k v).keys ↔ x = k ∨ x ∈ m.keys := by
  have h := mem_keys_erase (m := m) (k := k) (x := x)
  unfold set
  simp only [keys, List.map_cons, List.mem_cons] at h ⊢
  rw [h]
  by_cases hx : x = k <;> simp [hx]

theorem keys_erase_sublist : (m.erase k).keys.Sublist m.keys :=
  List.filter_sublist.map _

/-- A map with distinct keys holding exactly the nonzero values of `c`. -/
structure Tracks (m : CountMap) (c : String → Int) : Prop where
  nodup : m.keys.Nodup
  get_eq : ∀ x, m.get x = c x
  mem_keys : ∀ x, x ∈ m.keys ↔ c x ≠ 0

variable {c : String → Int}

theorem Tracks.erase (h : m.Tracks c) (hk : c k - 1 = 0) :
    (m.erase k).Tracks (Function.update c k (c k - 1)) where
  nodup := h.nodup.sublist keys_erase_sublist
  get_eq x := by
    rw [get_erase, Function.update_apply]
    split
    · exact hk.symm
    · exact h.get_eq x
  mem_keys x := by
    rw [mem_keys_erase, h.mem_keys, Function.update_apply]
    by_cases hx : x = k <;> simp [hx, hk]

theorem Tracks.set (h : m.Tracks c) (hv : v ≠ 0) : (m.set k v).Tracks (Function.update c k v) where
  nodup := by
    unfold CountMap.set
    simp only [keys, List.map_cons]
    exact List.nodup_cons.mpr ⟨fun hmem => (mem_keys_erase.mp hmem).2 rfl,
      h.nodup.sublist keys_erase_sublist⟩
  get_eq x := by
    rw [get_set, Function.update_apply]
    split
    · rfl
    · exact h.get_eq x
  mem_keys x := by
    rw [mem_keys_set, h.mem_keys, Function.update_apply]
    by_cases hx : x = k <;> simp [hx, hv]

end CountMapLemmas

end CountMap

/-- The loop over a visited task's successors: `predecessors[successor]--`, and a successor whose
count drops to zero leaves the map and joins the queue. -/
def reduceSuccessors : List String → List String × CountMap → List String × CountMap
  | [], acc => acc
  | successor :: rest, (queue, predecessors) =>
    let n := predecessors.get successor - 1
    if n = 0 then reduceSuccessors rest (queue ++ [successor], predecessors.erase successor)
    else reduceSuccessors rest (queue, predecessors.set successor n)

/-- The queue loop of `CheckTaskDependencies`; `none` where `taskByID[id]` is `nil`, on which
`.haltTasks` panics, and where the fuel ran out. -/
def kahnLoop (taskByID : String → Option DepTask) :
    Nat → List String → CountMap → Option CountMap
  | _, [], predecessors => some predecessors
  | 0, _ :: _, _ => none
  | fuel + 1, id :: queue, predecessors => do
    let t ← taskByID id
    let (queue, predecessors) := reduceSuccessors t.haltTasks (queue, predecessors)
    kahnLoop taskByID fuel queue predecessors

/-- `predecessors` as first built: the number of tasks each task waits for, for the tasks that
wait for some. -/
def initialPredecessors (tasks : List DepTask) : CountMap :=
  tasks.foldl (fun m t => if t.waitTasks.length > 0 then m.set t.id t.waitTasks.length else m) []

/-- A fuel the queue never outlasts: every task joins it at most once. -/
def kahnFuel (tasks : List DepTask) : Nat :=
  tasks.length + (tasks.map fun t => t.haltTasks.length).sum

/-- `Change.CheckTaskDependencies` over the change's tasks: `some none` for `nil`, `some (some e)`
for a cycle error, `none` where it panics. -/
def checkTaskDependencies (tasks : List DepTask) : Option (Option TaskDependencyCycleError) := do
  -- the map is filled in order, so a later task of one ID wins
  let taskByID (id : String) : Option DepTask := tasks.reverse.find? fun t => t.id = id
  let predecessors := initialPredecessors tasks
  let queue := (tasks.filter fun t => predecessors.get t.id = 0).map (·.id)
  let predecessors ← kahnLoop taskByID (kahnFuel tasks) queue predecessors
  if predecessors = [] then return none
  let unsatisfiedTasks := predecessors.keys.insertionSort (· ≤ ·)
  let named ← unsatisfiedTasks.mapM taskByID
  return some ⟨unsatisfiedTasks, "dependency cycle involving tasks [" ++
    " ".intercalate (named.map fun t => t.id ++ ":" ++ t.kind) ++ "]"⟩

/-- `b` has a task that waits for `a`: `a` precedes `b`, along a halt edge from `a`. -/
def waitsOn (tasks : List DepTask) (a b : String) : Prop :=
  ∃ t ∈ tasks, t.id = b ∧ a ∈ t.waitTasks

/-- The wait and halt lists of a change's tasks as `WaitFor` keeps them: each lists a task once
(`addOnce`), `u` waits for `t` exactly when `t` halts `u`, and both refer to tasks of the
change, whose IDs are distinct. -/
structure WaitForLinked (tasks : List DepTask) : Prop where
  ids_nodup : (tasks.map DepTask.id).Nodup
  waits_nodup : ∀ t ∈ tasks, t.waitTasks.Nodup
  halts_nodup : ∀ t ∈ tasks, t.haltTasks.Nodup
  inverse : ∀ t ∈ tasks, ∀ u ∈ tasks, u.id ∈ t.waitTasks ↔ t.id ∈ u.haltTasks
  waits_in : ∀ t ∈ tasks, ∀ x ∈ t.waitTasks, x ∈ tasks.map DepTask.id
  halts_in : ∀ t ∈ tasks, ∀ x ∈ t.haltTasks, x ∈ tasks.map DepTask.id

/-- The tasks `x` waits for that are not visited yet. -/
def unvisitedPreds (tasks : List DepTask) (visited : List String) (x : String) : Int :=
  ((tasks.find? fun t => t.id = x).map fun t => (t.waitTasks.countP (· ∉ visited) : Int)).getD 0

section Lookup

variable {tasks : List DepTask} {t : DepTask} {x : String}

theorem find?_id_of_mem (hids : (tasks.map DepTask.id).Nodup) (ht : t ∈ tasks) :
    (tasks.find? fun u => u.id = t.id) = some t := by
  have hsome : (tasks.find? fun u => u.id = t.id).isSome :=
    List.find?_isSome.mpr ⟨t, ht, decide_eq_true rfl⟩
  obtain ⟨u, hu⟩ := Option.isSome_iff_exists.mp hsome
  have hum : u ∈ tasks := List.mem_of_find?_eq_some hu
  have hp := List.find?_some hu
  have huid : u.id = t.id := by simpa using hp
  rw [hu, List.inj_on_of_nodup_map hids hum ht huid]

theorem find?_id_of_not_mem (hx : x ∉ tasks.map DepTask.id) :
    (tasks.find? fun u => u.id = x) = none :=
  List.find?_eq_none.mpr fun u hu hux => hx (by simpa using ⟨u, hu, of_decide_eq_true hux⟩)

theorem mem_ids_iff : x ∈ tasks.map DepTask.id ↔ ∃ t ∈ tasks, t.id = x := by
  simp

theorem unvisitedPreds_of_mem (hids : (tasks.map DepTask.id).Nodup) (ht : t ∈ tasks)
    (visited : List String) :
    unvisitedPreds tasks visited t.id = t.waitTasks.countP (· ∉ visited) := by
  simp [unvisitedPreds, find?_id_of_mem hids ht]

theorem unvisitedPreds_of_not_mem (hx : x ∉ tasks.map DepTask.id) (visited : List String) :
    unvisitedPreds tasks visited x = 0 := by
  simp [unvisitedPreds, find?_id_of_not_mem hx]

theorem unvisitedPreds_eq_zero_iff (hids : (tasks.map DepTask.id).Nodup) (ht : t ∈ tasks)
    {visited : List String} :
    unvisitedPreds tasks visited t.id = 0 ↔ ∀ a ∈ t.waitTasks, a ∈ visited := by
  rw [unvisitedPreds_of_mem hids ht, Int.natCast_eq_zero, List.countP_eq_zero]
  simp

theorem waitsOn_iff (hids : (tasks.map DepTask.id).Nodup) (ht : t ∈ tasks) {a : String} :
    waitsOn tasks a t.id ↔ a ∈ t.waitTasks := by
  constructor
  · rintro ⟨u, hu, huid, ha⟩
    rwa [← List.inj_on_of_nodup_map hids hu ht huid]
  · exact fun ha => ⟨t, ht, rfl, ha⟩

end Lookup

section Kahn

variable {tasks : List DepTask}

theorem WaitForLinked.waitsOn_mem (hg : WaitForLinked tasks) {a b : String}
    (h : waitsOn tasks a b) : a ∈ tasks.map DepTask.id ∧ b ∈ tasks.map DepTask.id := by
  obtain ⟨t, ht, rfl, ha⟩ := h
  exact ⟨hg.waits_in t ht a ha, List.mem_map_of_mem ht⟩

/-- Visiting `t` lowers by one the count of exactly the tasks it halts, the tasks that wait for
it. -/
theorem WaitForLinked.unvisitedPreds_visit (hg : WaitForLinked tasks) {t : DepTask}
    (ht : t ∈ tasks) {visited : List String} (hv : t.id ∉ visited) :
    unvisitedPreds tasks (t.id :: visited) = fun x =>
      if x ∈ t.haltTasks then unvisitedPreds tasks visited x - 1
      else unvisitedPreds tasks visited x := by
  funext x
  by_cases hx : x ∈ tasks.map DepTask.id
  · obtain ⟨u, hu, rfl⟩ := mem_ids_iff.mp hx
    rw [unvisitedPreds_of_mem hg.ids_nodup hu, unvisitedPreds_of_mem hg.ids_nodup hu]
    have hiff : t.id ∈ u.waitTasks ↔ u.id ∈ t.haltTasks := hg.inverse u hu t ht
    by_cases hw : t.id ∈ u.waitTasks
    · rw [if_pos (hiff.mp hw)]
      have hcount := Worklist.countP_not_mem_cons_add_one (hg.waits_nodup u hu) hw hv
      omega
    · rw [if_neg (mt hiff.mpr hw), Worklist.countP_not_mem_cons_of_not_mem hw]
  · have hhalt : x ∉ t.haltTasks := fun h => hx (hg.halts_in t ht x h)
    rw [if_neg hhalt, unvisitedPreds_of_not_mem hx, unvisitedPreds_of_not_mem hx]

end Kahn

/-- The successor loop lowers the count of each successor, listed once, by one, and queues those
whose count was one. -/
theorem reduceSuccessors_spec (successors : List String) (hnodup : successors.Nodup)
    (queue : List String) {m : CountMap} {c : String → Int} (hm : m.Tracks c) :
    ∃ m', reduceSuccessors successors (queue, m) =
        (queue ++ successors.filter (fun s => c s = 1), m') ∧
      m'.Tracks fun x => if x ∈ successors then c x - 1 else c x := by
  induction successors generalizing queue m c with
  | nil =>
    refine ⟨m, by simp [reduceSuccessors], ?_⟩
    simpa using hm
  | cons s rest ih =>
    obtain ⟨hs, hrest⟩ := List.nodup_cons.mp hnodup
    -- the later successors see `s`'s new count, which they do not read
    have hfilter : rest.filter (fun x => Function.update c s (c s - 1) x = 1) =
        rest.filter (fun x => c x = 1) :=
      List.filter_congr fun x hx => by
        have hxs : x ≠ s := fun h => hs (h ▸ hx)
        rw [Function.update_of_ne hxs]
    have hcount : (fun x => if x ∈ rest then Function.update c s (c s - 1) x - 1
        else Function.update c s (c s - 1) x) =
        fun x => if x ∈ s :: rest then c x - 1 else c x := by
      funext x
      by_cases hx : x = s
      · subst hx
        simp [hs]
      · simp [hx]
    unfold reduceSuccessors
    rw [hm.get_eq s]
    by_cases h0 : c s - 1 = 0
    · rw [if_pos h0]
      obtain ⟨m', hred, htr⟩ := ih hrest (queue ++ [s]) (hm.erase h0)
      refine ⟨m', ?_, hcount ▸ htr⟩
      rw [hred, hfilter, List.filter_cons_of_pos (by simp; omega), List.append_assoc]
      rfl
    · rw [if_neg h0]
      obtain ⟨m', hred, htr⟩ := ih hrest queue (hm.set (k := s) h0)
      refine ⟨m', ?_, hcount ▸ htr⟩
      rw [hred, hfilter, List.filter_cons_of_neg (by simp; omega)]

/-- What holds of Kahn's sort at each turn: the map tracks the unvisited predecessors; the queue
holds distinct unvisited tasks; a task is visited or queued exactly when all it waits for is
visited; and every visited task lies on no chain of waits that never ends. -/
structure KahnInv (tasks : List DepTask) (visited queue : List String) (m : CountMap) : Prop where
  tracks : m.Tracks (unvisitedPreds tasks visited)
  queue_nodup : queue.Nodup
  queue_tasks : ∀ x ∈ queue, x ∈ tasks.map DepTask.id
  queue_unvisited : ∀ x ∈ queue, x ∉ visited
  ready : ∀ x ∈ tasks.map DepTask.id, (x ∈ visited ∨ x ∈ queue) ↔ unvisitedPreds tasks visited x = 0
  acc : ∀ x ∈ visited, Acc (waitsOn tasks) x

section Kahn

variable {tasks : List DepTask} {visited queue : List String} {m : CountMap}

theorem KahnInv.visit (hg : WaitForLinked tasks) {t : DepTask} (ht : t ∈ tasks)
    (hinv : KahnInv tasks visited (t.id :: queue) m) :
    ∃ m', reduceSuccessors t.haltTasks (queue, m) =
        (queue ++ t.haltTasks.filter (fun s => unvisitedPreds tasks visited s = 1), m') ∧
      KahnInv tasks (t.id :: visited) (queue ++
        t.haltTasks.filter (fun s => unvisitedPreds tasks visited s = 1)) m' := by
  have hv : t.id ∉ visited := hinv.queue_unvisited _ List.mem_cons_self
  have hq : t.id ∉ queue := (List.nodup_cons.mp hinv.queue_nodup).1
  have hvisit := hg.unvisitedPreds_visit ht hv
  obtain ⟨m', hred, htr⟩ := reduceSuccessors_spec t.haltTasks (hg.halts_nodup t ht) queue hinv.tracks
  refine ⟨m', hred, ?_⟩
  -- a task `t` halts waits for `t`, so it was neither visited nor queued
  have hpending : ∀ s ∈ t.haltTasks, s ∉ visited ∧ s ∉ t.id :: queue := by
    intro s hs
    obtain ⟨u, hu, rfl⟩ := mem_ids_iff.mp (hg.halts_in t ht s hs)
    have hwait : t.id ∈ u.waitTasks := (hg.inverse u hu t ht).mpr hs
    have hnz : unvisitedPreds tasks visited u.id ≠ 0 := fun h0 =>
      hv ((unvisitedPreds_eq_zero_iff hg.ids_nodup hu).mp h0 _ hwait)
    have hout := mt (hinv.ready u.id (List.mem_map_of_mem hu)).mp hnz
    exact not_or.mp hout
  have hfilter : ∀ s, s ∈ t.haltTasks.filter (fun s => unvisitedPreds tasks visited s = 1) ↔
      s ∈ t.haltTasks ∧ unvisitedPreds tasks visited s = 1 := by
    intro s
    simp
  refine ⟨hvisit ▸ htr, ?_, ?_, ?_, ?_, ?_⟩
  · refine List.nodup_append.mpr ⟨(List.nodup_cons.mp hinv.queue_nodup).2,
      (hg.halts_nodup t ht).filter _, fun a ha b hb hab => ?_⟩
    subst hab
    exact (hpending a ((hfilter a).mp hb).1).2 (List.mem_cons_of_mem _ ha)
  · intro x hx
    rcases List.mem_append.mp hx with hx | hx
    · exact hinv.queue_tasks x (List.mem_cons_of_mem _ hx)
    · exact hg.halts_in t ht x ((hfilter x).mp hx).1
  · intro x hx hvis
    rcases List.mem_append.mp hx with hx | hx
    · rcases List.mem_cons.mp hvis with rfl | hvis
      · exact hq hx
      · exact hinv.queue_unvisited x (List.mem_cons_of_mem _ hx) hvis
    · have hs := ((hfilter x).mp hx).1
      rcases List.mem_cons.mp hvis with rfl | hvis
      · exact (hpending _ hs).2 List.mem_cons_self
      · exact (hpending x hs).1 hvis
  · intro x hx
    rw [hvisit]
    dsimp only
    have hold := hinv.ready x hx
    by_cases hs : x ∈ t.haltTasks
    · -- a task `t` halts becomes ready when its count drops from one
      rw [if_pos hs]
      obtain ⟨hxv, hxq⟩ := hpending x hs
      have hxt : x ≠ t.id := fun h => hxq (h ▸ List.mem_cons_self)
      simp only [List.mem_cons, hxt, hxv, false_or, List.mem_append, hfilter, hs, true_and]
      have hnz : unvisitedPreds tasks visited x ≠ 0 := fun h0 => not_or.mpr ⟨hxv, hxq⟩ (hold.mpr h0)
      constructor
      · rintro (hx' | hx')
        · exact absurd (List.mem_cons_of_mem _ hx') hxq
        · omega
      · intro h
        exact .inr (by omega)
    · rw [if_neg hs, ← hold]
      by_cases hxt : x = t.id
      · subst hxt
        simp
      · simp [hxt, List.mem_append, hfilter, hs]
  · intro x hx
    rcases List.mem_cons.mp hx with rfl | hx
    · -- everything `t` waits for is visited, and lies on no endless chain
      have hready := (unvisitedPreds_eq_zero_iff hg.ids_nodup ht).mp
        ((hinv.ready t.id (List.mem_map_of_mem ht)).mp (.inr List.mem_cons_self))
      exact Acc.intro _ fun a ha => hinv.acc a (hready a ((waitsOn_iff hg.ids_nodup ht).mp ha))
    · exact hinv.acc x hx

end Kahn

section Kahn

variable {tasks : List DepTask}

theorem find?_reverse_id (hids : (tasks.map DepTask.id).Nodup) {t : DepTask} (ht : t ∈ tasks) :
    (tasks.reverse.find? fun u => u.id = t.id) = some t :=
  find?_id_of_mem (by rw [List.map_reverse]; exact List.nodup_reverse.mpr hids)
    (List.mem_reverse.mpr ht)

/-- From a state of the invariant with enough fuel, the queue loop ends, with the invariant and
an empty queue. By induction on the fuel; each visit marks one more task visited. -/
theorem kahnLoop_spec (hg : WaitForLinked tasks) :
    ∀ fuel visited queue m, KahnInv tasks visited queue m →
      (tasks.map DepTask.id).countP (· ∉ visited) ≤ fuel →
      ∃ visited' m', kahnLoop (fun id => tasks.reverse.find? fun t => t.id = id) fuel queue m =
        some m' ∧ KahnInv tasks visited' [] m' := by
  intro fuel
  induction fuel with
  | zero =>
    intro visited queue m hinv hfuel
    cases queue with
    | nil => exact ⟨visited, m, rfl, hinv⟩
    | cons id rest =>
      -- a queued task is unvisited, so some fuel is left
      have hpos : 0 < (tasks.map DepTask.id).countP (· ∉ visited) :=
        List.countP_pos_iff.mpr ⟨id, hinv.queue_tasks id List.mem_cons_self,
          by simpa using hinv.queue_unvisited id List.mem_cons_self⟩
      omega
  | succ fuel ih =>
    intro visited queue m hinv hfuel
    cases queue with
    | nil => exact ⟨visited, m, rfl, hinv⟩
    | cons id rest =>
      obtain ⟨t, ht, rfl⟩ := mem_ids_iff.mp (hinv.queue_tasks _ List.mem_cons_self)
      obtain ⟨m', hred, hinv'⟩ := hinv.visit hg ht
      have hless := Worklist.countP_not_mem_cons_lt (List.mem_map_of_mem ht)
        (hinv.queue_unvisited _ List.mem_cons_self)
      obtain ⟨visited', m'', hrun, hend⟩ := ih _ _ _ hinv' (by omega)
      refine ⟨visited', m'', ?_, hend⟩
      simp only [kahnLoop, find?_reverse_id hg.ids_nodup ht, Option.bind_eq_bind, Option.bind_some,
        hred]
      exact hrun

theorem foldl_set_tracks (L : List DepTask) (hL : (L.map DepTask.id).Nodup) {m : CountMap}
    {c : String → Int} (hm : m.Tracks c) (hfresh : ∀ t ∈ L, c t.id = 0) :
    (L.foldl (fun m t => if t.waitTasks.length > 0 then m.set t.id t.waitTasks.length else m)
      m).Tracks fun x => unvisitedPreds L [] x + c x := by
  induction L generalizing m c with
  | nil =>
    simpa [unvisitedPreds] using hm
  | cons t L ih =>
    have hLt := hL
    obtain ⟨hnew, hL⟩ := List.nodup_cons.mp hL
    have hstep : (if t.waitTasks.length > 0 then m.set t.id t.waitTasks.length else m).Tracks
        (Function.update c t.id t.waitTasks.length) := by
      split
      · exact hm.set (by omega)
      · have hzero : (t.waitTasks.length : Int) = c t.id := by
          rw [hfresh t List.mem_cons_self]
          omega
        rw [hzero, Function.update_eq_self]
        exact hm
    have hfresh' : ∀ u ∈ L, Function.update c t.id t.waitTasks.length u.id = 0 := by
      intro u hu
      have hne : u.id ≠ t.id := fun h => hnew (h ▸ List.mem_map_of_mem hu)
      rw [Function.update_of_ne hne]
      exact hfresh u (List.mem_cons_of_mem _ hu)
    have htr := ih hL hstep hfresh'
    simp only [List.foldl_cons]
    convert htr using 1
    funext x
    by_cases hx : x = t.id
    · subst hx
      rw [unvisitedPreds_of_not_mem hnew [], Function.update_self, hfresh t List.mem_cons_self,
        unvisitedPreds_of_mem hLt List.mem_cons_self]
      simp
    · have hne : t.id ≠ x := Ne.symm hx
      simp [unvisitedPreds, hne, Function.update_of_ne hx]

end Kahn

section Kahn

variable {tasks : List DepTask}

/-- The sort starts from the invariant: nothing visited, and queued the tasks that wait for
none. -/
theorem kahnInv_initial (hg : WaitForLinked tasks) :
    KahnInv tasks []
      ((tasks.filter fun t => (initialPredecessors tasks).get t.id = 0).map (·.id))
      (initialPredecessors tasks) := by
  have htr : (initialPredecessors tasks).Tracks (unvisitedPreds tasks []) := by
    have h := foldl_set_tracks tasks hg.ids_nodup (m := []) (c := fun _ => 0)
      ⟨List.nodup_nil, fun _ => rfl, fun _ => by simp [CountMap.keys]⟩ (fun _ _ => rfl)
    simpa [initialPredecessors] using h
  refine ⟨htr, (hg.ids_nodup.sublist (List.filter_sublist.map _)), ?_, ?_, ?_, ?_⟩
  · intro x hx
    obtain ⟨t, ht, rfl⟩ := List.mem_map.mp hx
    exact List.mem_map_of_mem (List.mem_filter.mp ht).1
  · intro x _ hx
    exact List.not_mem_nil hx
  · intro x hx
    obtain ⟨t, ht, rfl⟩ := mem_ids_iff.mp hx
    rw [← htr.get_eq]
    constructor
    · rintro (h | h)
      · exact absurd h List.not_mem_nil
      · obtain ⟨u, hu, huid⟩ := List.mem_map.mp h
        obtain ⟨hu, hzero⟩ := List.mem_filter.mp hu
        rw [← huid]
        simpa using hzero
    · intro h
      exact .inr (List.mem_map_of_mem (List.mem_filter.mpr ⟨ht, by simpa using h⟩))
  · intro x hx
    exact absurd hx List.not_mem_nil

/-- When the queue runs dry, the map holds exactly the tasks that some endless chain of waits
leads to. A visited task has no such chain; an unvisited one waits for an unvisited one, and
an accessible task is visited by induction on its accessibility. -/
theorem KahnInv.mem_keys_iff (hg : WaitForLinked tasks) {visited : List String} {m : CountMap}
    (hinv : KahnInv tasks visited [] m) (x : String) :
    x ∈ m.keys ↔ x ∈ tasks.map DepTask.id ∧ ¬ Acc (waitsOn tasks) x := by
  have hvisited : ∀ y ∈ tasks.map DepTask.id, Acc (waitsOn tasks) y → y ∈ visited := by
    intro y hy hacc
    induction hacc with
    | intro y _ ih =>
      obtain ⟨t, ht, rfl⟩ := mem_ids_iff.mp hy
      have hready := (hinv.ready t.id hy).mpr
        ((unvisitedPreds_eq_zero_iff hg.ids_nodup ht).mpr fun a ha =>
          ih a ((waitsOn_iff hg.ids_nodup ht).mpr ha) (hg.waits_in t ht a ha))
      simpa using hready
  rw [hinv.tracks.mem_keys]
  by_cases hx : x ∈ tasks.map DepTask.id
  · have hready := hinv.ready x hx
    simp only [List.not_mem_nil, or_false] at hready
    constructor
    · intro hnz
      exact ⟨hx, fun hacc => hnz (hready.mp (hvisited x hx hacc))⟩
    · intro ⟨_, hnacc⟩ hzero
      exact hnacc (hinv.acc x (hready.mpr hzero))
  · simp [hx, unvisitedPreds_of_not_mem hx]

theorem WaitForLinked.not_acc_iff (hg : WaitForLinked tasks) (x : String) :
    ¬ Acc (waitsOn tasks) x ↔
      ∃ c, TransGen (waitsOn tasks) c c ∧ ReflTransGen (waitsOn tasks) c x := by
  constructor
  · intro hnacc
    by_contra hnone
    exact hnacc (Closure.acc_of_no_cycle (List.finite_toSet (tasks.map DepTask.id))
      (fun a b h => (hg.waitsOn_mem h).1) fun c hc hcyc => hnone ⟨c, hcyc, hc⟩)
  · rintro ⟨c, hcyc, hcx⟩
    exact Closure.not_acc_of_cycle hcyc hcx

theorem WaitForLinked.mem_of_cycle (hg : WaitForLinked tasks) {c x : String}
    (hcyc : TransGen (waitsOn tasks) c c) (hcx : ReflTransGen (waitsOn tasks) c x) :
    x ∈ tasks.map DepTask.id := by
  rcases ReflTransGen.cases_tail hcx with rfl | ⟨b, _, hbx⟩
  · obtain ⟨b, _, hbc⟩ := TransGen.tail'_iff.mp hcyc
    exact (hg.waitsOn_mem hbc).2
  · exact (hg.waitsOn_mem hbx).2

end Kahn

theorem mapM_eq_some_of_forall {α β : Type} (f : α → Option β) :
    ∀ l : List α, (∀ x ∈ l, ∃ y, f x = some y) → ∃ ys, l.mapM f = some ys
  | [], _ => ⟨[], rfl⟩
  | x :: l, h => by
    obtain ⟨y, hy⟩ := h x List.mem_cons_self
    obtain ⟨ys, hys⟩ := mapM_eq_some_of_forall f l fun z hz => h z (List.mem_cons_of_mem _ hz)
    exact ⟨y :: ys, by simp [List.mapM_cons, hy, hys]⟩

/-- On a change whose wait and halt lists are as `WaitFor` keeps them, `CheckTaskDependencies`
does not panic; it returns `nil` exactly when no cycle of waits exists, and otherwise an error
whose IDs, sorted, are exactly the tasks a cycle reaches along halt edges. -/
theorem checkTaskDependencies_reports_cycles (tasks : List DepTask) (hg : WaitForLinked tasks) :
    ∃ r, checkTaskDependencies tasks = some r ∧
      (r = none ↔ ∀ c, ¬ TransGen (waitsOn tasks) c c) ∧
      ∀ e, r = some e → e.ids.Pairwise (· < ·) ∧
        ∀ x, x ∈ e.ids ↔ ∃ c, TransGen (waitsOn tasks) c c ∧ ReflTransGen (waitsOn tasks) c x := by
  have hfuel : (tasks.map DepTask.id).countP (· ∉ ([] : List String)) ≤ kahnFuel tasks := by
    have := List.countP_le_length (p := fun x => decide (x ∉ ([] : List String)))
      (l := tasks.map DepTask.id)
    simp only [List.length_map, kahnFuel] at this ⊢
    omega
  obtain ⟨visited, m, hloop, hinv⟩ := kahnLoop_spec hg _ _ _ _ (kahnInv_initial hg) hfuel
  have hkeys : ∀ x, x ∈ m.keys ↔
      ∃ c, TransGen (waitsOn tasks) c c ∧ ReflTransGen (waitsOn tasks) c x := by
    intro x
    rw [hinv.mem_keys_iff hg, hg.not_acc_iff]
    exact ⟨fun h => h.2, fun h => ⟨hg.mem_of_cycle h.choose_spec.1 h.choose_spec.2, h⟩⟩
  have hsorted := List.perm_insertionSort (fun a b : String => a ≤ b) m.keys
  obtain ⟨named, hnamed⟩ := mapM_eq_some_of_forall
    (fun id => tasks.reverse.find? fun t => t.id = id) (m.keys.insertionSort (· ≤ ·)) fun x hx => by
      obtain ⟨t, ht, rfl⟩ := mem_ids_iff.mp ((hinv.mem_keys_iff hg x).mp (hsorted.subset hx)).1
      exact ⟨t, find?_reverse_id hg.ids_nodup ht⟩
  by_cases hm : m = []
  · refine ⟨none, ?_, ⟨fun _ c hcyc => ?_, fun _ => rfl⟩, fun e he => absurd he (by simp)⟩
    · simp [checkTaskDependencies, hloop, hm]
    · have hc := (hkeys c).mpr ⟨c, hcyc, ReflTransGen.refl⟩
      simp [hm, CountMap.keys] at hc
  · refine ⟨some ⟨m.keys.insertionSort (· ≤ ·), "dependency cycle involving tasks [" ++
        " ".intercalate (named.map fun t => t.id ++ ":" ++ t.kind) ++ "]"⟩, ?_, ?_, ?_⟩
    · simp [checkTaskDependencies, hloop, hm, hnamed]
    · -- a key of the map is a task a cycle reaches
      obtain ⟨e, rest, hrest⟩ := List.exists_cons_of_ne_nil hm
      have hkey : e.1 ∈ m.keys := by
        rw [hrest]
        exact List.mem_cons_self
      obtain ⟨c, hcyc, -⟩ := (hkeys e.1).mp hkey
      exact ⟨fun h => absurd h (by simp), fun h => absurd hcyc (h c)⟩
    · rintro e ⟨⟩
      refine ⟨?_, fun x => hsorted.mem_iff.trans (hkeys x)⟩
      have hle := List.pairwise_insertionSort (fun a b : String => a ≤ b) m.keys
      have hne := hsorted.nodup_iff.mpr hinv.tracks.nodup
      exact (hle.and hne).imp fun h => lt_of_le_of_ne h.1 h.2

/-- Three tasks: `a` waits for `b`, and `b` and `c` wait for each other. -/
def cyclicChange : List DepTask :=
  [⟨"a", "x", ["b"], []⟩, ⟨"b", "y", ["c"], ["a", "c"]⟩, ⟨"c", "z", ["b"], ["b"]⟩]

theorem cyclicChange_linked : WaitForLinked cyclicChange :=
  ⟨by decide, by decide, by decide, by decide, by decide, by decide⟩

theorem cyclicChange_reports_cycle :
    WaitForLinked cyclicChange ∧
      ∃ r, checkTaskDependencies cyclicChange = some r ∧
        (r = none ↔ ∀ c, ¬ TransGen (waitsOn cyclicChange) c c) ∧
        ∀ e, r = some e → e.ids.Pairwise (· < ·) ∧
          ∀ x, x ∈ e.ids ↔
            ∃ c, TransGen (waitsOn cyclicChange) c c ∧ ReflTransGen (waitsOn cyclicChange) c x :=
  ⟨cyclicChange_linked, checkTaskDependencies_reports_cycles cyclicChange cyclicChange_linked⟩

/-- A task `a` waiting for `b` twice, as the inverse relation alone allows. -/
def doubleWait : List DepTask :=
  [⟨"a", "x", ["b", "b"], []⟩, ⟨"b", "y", [], ["a"]⟩]

theorem doubleWait_waitsOn {a b : String} (h : waitsOn doubleWait a b) : a = "b" ∧ b = "a" := by
  obtain ⟨t, ht, rfl, ha⟩ := h
  simp only [doubleWait, List.mem_cons, List.not_mem_nil, or_false] at ht
  rcases ht with rfl | rfl
  · simp at ha
    exact ⟨ha, rfl⟩
  · simp at ha

/-- `a` waits for `b` twice; `b` halts `a` once, so the count of `a` drops only to one and
`CheckTaskDependencies` reports a cycle through `a`, though the lists are inverse, refer to the
change's tasks only, and no cycle exists. -/
theorem double_wait_reports_spurious_cycle :
    checkTaskDependencies doubleWait =
        some (some ⟨["a"], "dependency cycle involving tasks [a:x]"⟩) ∧
      (∀ t ∈ doubleWait, ∀ u ∈ doubleWait, u.id ∈ t.waitTasks ↔ t.id ∈ u.haltTasks) ∧
      (∀ t ∈ doubleWait, ∀ x ∈ t.waitTasks ++ t.haltTasks, x ∈ doubleWait.map DepTask.id) ∧
      ∀ c, ¬ TransGen (waitsOn doubleWait) c c := by
  refine ⟨by decide, by decide, by decide, fun c hcyc => ?_⟩
  have hchain : ∀ d, TransGen (waitsOn doubleWait) c d → c = "b" ∧ d = "a" := by
    intro d hcd
    induction hcd with
    | single h => exact doubleWait_waitsOn h
    | tail _ hbd ih =>
      obtain ⟨hb, -⟩ := doubleWait_waitsOn hbd
      exact absurd (ih.2.symm.trans hb) (by decide)
  obtain ⟨hc, hc'⟩ := hchain c hcyc
  exact absurd (hc.symm.trans hc') (by decide)

end Snapd.State
