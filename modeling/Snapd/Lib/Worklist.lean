import Mathlib.Data.List.Basic

/-! Counting what a worklist has still to see. A worklist algorithm that marks elements seen one at
a time pays for each step with one element of a finite list that is no longer unseen; these are
the counts its termination and its bookkeeping rest on. -/

namespace Worklist

variable {α : Type} [DecidableEq α] {l s : List α} {a : α}

theorem countP_not_mem_cons_lt (ha : a ∈ l) (hs : a ∉ s) :
    l.countP (· ∉ a :: s) < l.countP (· ∉ s) := by
  induction l with
  | nil => exact absurd ha List.not_mem_nil
  | cons x l ih =>
    have hle : l.countP (· ∉ a :: s) ≤ l.countP (· ∉ s) :=
      List.countP_mono_left fun y _ hy => by simp_all
    rcases List.mem_cons.mp ha with rfl | hx
    · have hout : decide (a ∉ a :: s) = false := by simp
      have hin : decide (a ∉ s) = true := by simpa using hs
      rw [List.countP_cons, List.countP_cons, hout, hin]
      simp only [Bool.false_eq_true, if_false, if_true]
      omega
    · -- the head counts on the left only if it counts on the right
      have hhead : (if decide (x ∉ a :: s) = true then 1 else 0) ≤
          (if decide (x ∉ s) = true then 1 else 0) := by
        split <;> simp_all
      rw [List.countP_cons, List.countP_cons]
      have := ih hx
      omega

theorem countP_not_mem_cons_add_one (hl : l.Nodup) (ha : a ∈ l) (hs : a ∉ s) :
    l.countP (· ∉ a :: s) + 1 = l.countP (· ∉ s) := by
  induction l with
  | nil => exact absurd ha List.not_mem_nil
  | cons x l ih =>
    obtain ⟨hx, hl⟩ := List.nodup_cons.mp hl
    rcases List.mem_cons.mp ha with rfl | ha'
    · -- `a` is the head, so the tail does not hold it and counts alike on both sides
      have htail : l.countP (· ∉ a :: s) = l.countP (· ∉ s) :=
        List.countP_congr fun y hy => by simp [show y ≠ a from fun h => hx (h ▸ hy)]
      have hout : decide (a ∉ a :: s) = false := by simp
      have hin : decide (a ∉ s) = true := by simpa using hs
      rw [List.countP_cons, List.countP_cons, hout, hin, htail]
      simp only [Bool.false_eq_true, if_false, if_true]
    · have hxa : x ≠ a := fun h => hx (h ▸ ha')
      have hhead : decide (x ∉ a :: s) = decide (x ∉ s) := by simp [hxa]
      rw [List.countP_cons, List.countP_cons, hhead, ← ih hl ha']
      omega

theorem countP_not_mem_cons_of_not_mem (ha : a ∉ l) :
    l.countP (· ∉ a :: s) = l.countP (· ∉ s) :=
  List.countP_congr fun y hy => by simp [show y ≠ a from fun h => ha (h ▸ hy)]

end Worklist
