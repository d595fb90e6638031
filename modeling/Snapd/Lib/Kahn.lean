import Mathlib.Data.List.Perm.Subperm
import Snapd.Lib.Closure
import Snapd.Lib.Run

/-! Kahn's sort of a finite graph. Each node keeps a count of the edges into it that are not yet
released; a node whose count is zero waits in a queue; a round takes the head of the queue to the
end of the sorted list and releases the edges out of it, queueing each node whose count reaches
zero. Between rounds the count of a node is the number of edges into it from nodes not yet
sorted, and every sorted node comes after the nodes with an edge into it. When the queue runs
empty, the nodes left out are exactly those that a cycle reaches, so all the nodes are sorted
exactly when the graph has no cycle. -/

namespace Kahn

open Relation

variable {α : Type} [DecidableEq α]

/-- The state of the sort: the queue of nodes ready to be taken, the count of each node's edges
not yet released, and the nodes taken so far, in order. -/
structure State (α : Type) where
  queue : List α
  count : α → Int
  sorted : List α

section Loop

variable (succ : α → List α)

/-- Release one edge into `b`: its count goes down, and a count that reaches zero puts `b` at the
end of the queue. -/
def release (s : State α) (b : α) : State α :=
  { s with count := Function.update s.count b (s.count b - 1),
           queue := if s.count b - 1 = 0 then s.queue ++ [b] else s.queue }

/-- One round: the head of the queue is sorted and the edges out of it are released. -/
def step (s : State α) : Option (State α) :=
  match s.queue with
  | [] => none
  | a :: q => some ((succ a).foldl release { s with queue := q, sorted := s.sorted ++ [a] })

/-- At most `n` rounds, stopping when the queue is empty. -/
def run : Nat → State α → State α
  | 0, s => s
  | n + 1, s =>
    match step succ s with
    | none => s
    | some s' => run n s'

@[simp] theorem release_sorted (s : State α) (b : α) : (release s b).sorted = s.sorted := rfl

theorem foldl_release_sorted (l : List α) (s : State α) : (l.foldl release s).sorted = s.sorted := by
  induction l generalizing s with
  | nil => rfl
  | cons b l ih => rw [List.foldl_cons, ih, release_sorted]

theorem step_eq_some_iff {s s' : State α} :
    step succ s = some s' ↔ ∃ a q, s.queue = a :: q ∧
      s' = (succ a).foldl release { s with queue := q, sorted := s.sorted ++ [a] } := by
  unfold step
  split
  · rename_i h
    simp [h]
  · rename_i a q h
    simp [h, eq_comm]

theorem step_eq_none_iff {s : State α} : step succ s = none ↔ s.queue = [] := by
  unfold step
  split <;> simp_all

theorem run_of_queue_eq_nil {s : State α} (h : s.queue = []) : ∀ n, run succ n s = s
  | 0 => rfl
  | n + 1 => by rw [run, (step_eq_none_iff succ).mpr h]

theorem run_succ_of_step {s s' : State α} (h : step succ s = some s') (n : Nat) :
    run succ (n + 1) s = run succ n s' := by
  rw [run, h]

end Loop

section Graph

variable (succ : α → List α) (nodes : List α)

/-- `b` comes before `a`: an edge of the graph goes from `b` to `a`. -/
def Before (b a : α) : Prop := b ∈ nodes ∧ a ∈ succ b

/-- The edges into `x` out of the nodes not in `done`. -/
def pending (done : List α) (x : α) : Nat := ((nodes.filter (· ∉ done)).flatMap succ).count x

/-- The edges into `x`. -/
def indegree (x : α) : Int := pending succ nodes [] x

/-- The start of the sort: the nodes with no edge into them are queued, in their order. -/
def init : State α := ⟨nodes.filter (indegree succ nodes · = 0), indegree succ nodes, []⟩

variable {succ nodes}

theorem pending_pos_iff {done : List α} {x : α} :
    0 < pending succ nodes done x ↔ ∃ b, Before succ nodes b x ∧ b ∉ done := by
  simp only [pending, List.count_pos_iff, List.mem_flatMap, List.mem_filter, Before,
    decide_eq_true_eq]
  constructor
  · rintro ⟨b, ⟨hb, hd⟩, hx⟩
    exact ⟨b, ⟨hb, hx⟩, hd⟩
  · rintro ⟨b, ⟨hb, hx⟩, hd⟩
    exact ⟨b, ⟨hb, hd⟩, hx⟩

theorem pending_eq_add (hn : nodes.Nodup) {a : α} (ha : a ∈ nodes) {done : List α} (hd : a ∉ done)
    (x : α) : pending succ nodes done x = pending succ nodes (done ++ [a]) x + (succ a).count x := by
  have haL : a ∈ nodes.filter (· ∉ done) := List.mem_filter.mpr ⟨ha, by simpa using hd⟩
  have herase : (nodes.filter (· ∉ done)).erase a = nodes.filter (· ∉ done ++ [a]) := by
    rw [(hn.filter _).erase_eq_filter, List.filter_filter]
    apply List.filter_congr
    intro y _
    by_cases hy : y = a <;> simp [hy]
  have hperm : ((nodes.filter (· ∉ done)).flatMap succ).Perm
      (succ a ++ (nodes.filter (· ∉ done ++ [a])).flatMap succ) := by
    rw [← herase, ← List.flatMap_cons]
    exact (List.perm_cons_erase haL).flatMap_right succ
  rw [pending, pending, hperm.count_eq, List.count_append]
  omega

end Graph

section Invariant

variable (succ : α → List α) (nodes : List α)

/-- What holds between the rounds, and within a round while the edges `rest` out of the node
just taken are still to be released: the count of each node is its pending edges plus those in
`rest`, a node not yet sorted is queued exactly when its count is zero, and every sorted node
comes after each node with an edge into it. -/
structure Inv (rest : List α) (s : State α) : Prop where
  nodup : (s.sorted ++ s.queue).Nodup
  mem : ∀ x ∈ s.sorted ++ s.queue, x ∈ nodes
  count_eq : ∀ x, s.count x = pending succ nodes s.sorted x + rest.count x
  queue_iff : ∀ x ∈ nodes, x ∉ s.sorted → (x ∈ s.queue ↔ s.count x = 0)
  fresh : ∀ x ∈ rest, x ∈ nodes ∧ x ∉ s.sorted
  topo : Run.Each (fun pre a => ∀ b, Before succ nodes b a → b ∈ pre) s.sorted

variable {succ nodes}

theorem inv_init (hn : nodes.Nodup) : Inv succ nodes [] (init succ nodes) where
  nodup := by simpa [init] using hn.filter _
  mem := fun x hx => by simp only [init, List.nil_append, List.mem_filter] at hx; exact hx.1
  count_eq := fun x => by simp [init, indegree]
  queue_iff := fun x hx _ => by simp [init, hx]
  fresh := fun x hx => by simp at hx
  topo := Run.each_nil _

/-- Releasing an edge into `b` keeps the invariant with `b` taken off the edges still to
release. -/
theorem Inv.release {b : α} {rest : List α} {s : State α} (h : Inv succ nodes (b :: rest) s) :
    Inv succ nodes rest (release s b) := by
  obtain ⟨hb, hbs⟩ := h.fresh b List.mem_cons_self
  -- `b` still had this edge to release, so it was not queued
  have hcount : s.count b = pending succ nodes s.sorted b + rest.count b + 1 := by
    rw [h.count_eq b, List.count_cons_self]
    push_cast
    omega
  have hbq : b ∉ s.queue := fun hq => by
    have := (h.queue_iff b hb hbs).mp hq
    omega
  refine ⟨?_, ?_, ?_, ?_, ?_, h.topo⟩
  · simp only [Kahn.release]
    split
    · rw [← List.append_assoc]
      exact h.nodup.append (List.nodup_singleton b) (by simp [hbq, hbs])
    · exact h.nodup
  · intro x hx
    simp only [Kahn.release] at hx
    split at hx
    · rcases List.mem_append.mp (List.append_assoc _ _ _ ▸ hx) with hx | hx
      · exact h.mem x hx
      · simp only [List.mem_singleton] at hx
        exact hx ▸ hb
    · exact h.mem x hx
  · intro x
    simp only [Kahn.release, Function.update_apply]
    split
    · subst x
      omega
    · rw [h.count_eq x, List.count_cons_of_ne (Ne.symm ‹_›)]
  · intro x hx hxs
    simp only [Kahn.release, Function.update_apply] at hxs ⊢
    by_cases hxb : x = b
    · subst x
      split <;> simp_all
    · have := h.queue_iff x hx hxs
      split <;> simp_all
  · exact fun x hx => h.fresh x (List.mem_cons_of_mem b hx)

theorem Inv.foldl_release {rest : List α} {s : State α}
    (h : Inv succ nodes rest s) :
    Inv succ nodes [] (rest.foldl Kahn.release s) := by
  induction rest generalizing s with
  | nil => exact h
  | cons b rest ih => exact ih h.release

theorem Inv.length_lt {rest : List α} {s : State α} (h : Inv succ nodes rest s)
    (hq : s.queue ≠ []) : s.sorted.length < nodes.length := by
  have hle := (h.nodup.subperm fun x hx => h.mem x hx).length_le
  have hpos : 0 < s.queue.length := List.length_pos_iff.mpr hq
  simp only [List.length_append] at hle
  omega

section Round

variable (hn : nodes.Nodup) (hclosed : ∀ b ∈ nodes, ∀ a ∈ succ b, a ∈ nodes)
include hn hclosed

/-- Taking the head `a` of the queue: its count is zero, so every node with an edge into it is
sorted already, and the edges out of it go to nodes not sorted yet. -/
theorem Inv.take {a : α} {q : List α} {s : State α} (h : Inv succ nodes [] s)
    (hq : s.queue = a :: q) :
    Inv succ nodes (succ a) { s with queue := q, sorted := s.sorted ++ [a] } := by
  have hmem : a ∈ s.sorted ++ s.queue := by simp [hq]
  have ha : a ∈ nodes := h.mem a hmem
  have has : a ∉ s.sorted := by
    have := h.nodup
    rw [hq, List.nodup_append] at this
    exact fun has => this.2.2 a has a List.mem_cons_self rfl
  have hzero : s.count a = 0 := (h.queue_iff a ha has).mp (by simp [hq])
  have hprev : ∀ b, Before succ nodes b a → b ∈ s.sorted := by
    intro b hb
    by_contra hbs
    have := pending_pos_iff.mpr ⟨b, hb, hbs⟩
    have := h.count_eq a
    omega
  refine ⟨?_, ?_, ?_, ?_, ?_, ?_⟩
  · simpa [hq] using h.nodup
  · simpa [hq] using h.mem
  · intro x
    rw [h.count_eq x, pending_eq_add hn ha has x]
    simp
  · intro x hx hxs
    have hxa : x ≠ a := fun hxa => hxs (by simp [hxa])
    have := h.queue_iff x hx (fun hx' => hxs (List.mem_append_left _ hx'))
    rw [hq] at this
    simpa [hxa] using this
  · intro x hx
    refine ⟨hclosed a ha x hx, ?_⟩
    intro hxs
    rcases List.mem_append.mp hxs with hxs | hxs
    · -- a sorted successor of `a` would have been sorted after `a`
      obtain ⟨l₁, l₂, hsplit⟩ := List.append_of_mem hxs
      have hal := h.topo l₁ x l₂ hsplit a ⟨ha, hx⟩
      exact has (hsplit ▸ List.mem_append_left _ hal)
    · -- an edge from `a` to itself would be pending
      simp only [List.mem_singleton] at hxs
      subst hxs
      exact has (hprev x ⟨ha, hx⟩)
  · exact (Run.each_append_singleton _).mpr ⟨h.topo, hprev⟩

theorem Inv.step {s s' : State α} (h : Inv succ nodes [] s)
    (hs : Kahn.step succ s = some s') : Inv succ nodes [] s' := by
  obtain ⟨a, q, hq, rfl⟩ := (step_eq_some_iff succ).mp hs
  exact (h.take hn hclosed hq).foldl_release

theorem Inv.run {s : State α} (h : Inv succ nodes [] s) :
    ∀ n, Inv succ nodes [] (Kahn.run succ n s) := by
  intro n
  induction n generalizing s with
  | zero => exact h
  | succ n ih =>
    cases hs : Kahn.step succ s with
    | none => rw [Kahn.run, hs]; exact h
    | some s' => rw [run_succ_of_step succ hs]; exact ih (h.step hn hclosed hs)

theorem Inv.run_queue {s : State α} (h : Inv succ nodes [] s) :
    ∀ n, nodes.length ≤ n + s.sorted.length → (Kahn.run succ n s).queue = [] := by
  intro n
  induction n generalizing s with
  | zero =>
    intro hlen
    by_contra hq
    have := h.length_lt hq
    omega
  | succ n ih =>
    intro hlen
    cases hs : Kahn.step succ s with
    | none => rw [Kahn.run, hs]; exact (step_eq_none_iff succ).mp hs
    | some s' =>
      rw [run_succ_of_step succ hs]
      obtain ⟨a, q, -, rfl⟩ := (step_eq_some_iff succ).mp hs
      apply ih (h.step hn hclosed hs)
      rw [foldl_release_sorted, List.length_append, List.length_singleton]
      omega

theorem run_init {n : Nat} (hfuel : nodes.length ≤ n) :
    Inv succ nodes [] (run succ n (init succ nodes)) ∧
      (run succ n (init succ nodes)).queue = [] :=
  ⟨(inv_init hn).run hn hclosed n, (inv_init hn).run_queue hn hclosed n (by simpa [init] using hfuel)⟩

end Round

section Done

variable {s : State α} (h : Inv succ nodes [] s) (hq : s.queue = [])
include h

theorem Inv.before_mem {b a : α} (hba : Before succ nodes b a) (ha : a ∈ s.sorted) :
    b ∈ s.sorted ∧ s.sorted.idxOf b < s.sorted.idxOf a := by
  obtain ⟨l₁, l₂, hsplit⟩ := List.append_of_mem ha
  have hb := h.topo l₁ a l₂ hsplit b hba
  have hnd : (l₁ ++ a :: l₂).Nodup := hsplit ▸ (List.nodup_append.mp h.nodup).1
  have hal : a ∉ l₁ := fun hal => (List.nodup_append.mp hnd).2.2 a hal a List.mem_cons_self rfl
  rw [hsplit, List.idxOf_append_of_mem hb, List.idxOf_append_of_notMem hal, List.idxOf_cons_self]
  exact ⟨List.mem_append_left _ hb, by simpa using List.idxOf_lt_length_of_mem hb⟩

theorem Inv.before_mem_of_transGen {b a : α} (hba : TransGen (Before succ nodes) b a)
    (ha : a ∈ s.sorted) : b ∈ s.sorted ∧ s.sorted.idxOf b < s.sorted.idxOf a := by
  induction hba with
  | single hba => exact h.before_mem hba ha
  | tail _ hca ih =>
    obtain ⟨hc, hlt⟩ := h.before_mem hca ha
    obtain ⟨hb, hlt'⟩ := ih hc
    exact ⟨hb, by omega⟩

theorem Inv.no_cycle_before {c x : α} (hc : TransGen (Before succ nodes) c c)
    (hcx : ReflTransGen (Before succ nodes) c x) (hx : x ∈ s.sorted) : False := by
  have hcs : c ∈ s.sorted := by
    rcases reflTransGen_iff_eq_or_transGen.mp hcx with rfl | hcx
    · exact hx
    · exact (h.before_mem_of_transGen hcx hx).1
  have := (h.before_mem_of_transGen hc hcs).2
  omega

include hq

theorem Inv.exists_before {x : α} (hx : x ∈ nodes) (hxs : x ∉ s.sorted) :
    ∃ b, Before succ nodes b x ∧ b ∉ s.sorted := by
  have hne : s.count x ≠ 0 := fun h0 => by
    have := (h.queue_iff x hx hxs).mpr h0
    simp [hq] at this
  apply pending_pos_iff.mp
  have := h.count_eq x
  rw [List.count_nil] at this
  omega

theorem Inv.count_eq_zero_iff {x : α} (hx : x ∈ nodes) : s.count x = 0 ↔ x ∈ s.sorted := by
  constructor
  · intro h0
    by_contra hxs
    have := (h.queue_iff x hx hxs).mpr h0
    simp [hq] at this
  · intro hxs
    have hpend : pending succ nodes s.sorted x = 0 := by
      by_contra hne
      obtain ⟨b, hb, hbs⟩ := pending_pos_iff.mp (Nat.pos_of_ne_zero hne)
      exact hbs (h.before_mem hb hxs).1
    simp [h.count_eq x, hpend]

theorem Inv.not_acc {x : α} (hacc : Acc (Before succ nodes) x) (hx : x ∈ nodes)
    (hxs : x ∉ s.sorted) : False := by
  induction hacc with
  | intro x _ ih =>
    obtain ⟨b, hb, hbs⟩ := h.exists_before hq hx hxs
    exact ih b hb hb.1 hbs

theorem Inv.not_mem_sorted_iff {x : α} (hx : x ∈ nodes) :
    x ∉ s.sorted ↔ ∃ c, TransGen (Before succ nodes) c c ∧ ReflTransGen (Before succ nodes) c x := by
  constructor
  · intro hxs
    by_contra hnone
    apply h.not_acc hq _ hx hxs
    exact Closure.acc_of_no_cycle (List.finite_toSet nodes) (fun b _ hb => hb.1)
      fun c hcx hc => hnone ⟨c, hc, hcx⟩
  · rintro ⟨c, hc, hcx⟩ hxs
    exact h.no_cycle_before hc hcx hxs

end Done

end Invariant

end Kahn
