import Mathlib.Data.List.Basic

/-! Go's `sort.Search`: the binary search for the first index of `[0, n)` at which a predicate
holds, for a predicate that once true stays true. The loop halves the interval `[i, j)` still to
search; the model bounds its iterations by `n`, which is enough since each one shrinks the
interval, and is proved to return the boundary of the predicate.

A list sorted by a class function `c` (no element of a higher class before one of a lower) has
each class in one block: an element at index `i` has a class below `k` exactly when `i` is
below the number of such elements. -/

namespace SortSearch

/-- The loop of `sort.Search` on the interval `[i, j)`, with `fuel` bounding its iterations. -/
def searchLoop (f : Nat → Bool) : Nat → Nat → Nat → Nat
  | 0, i, _ => i
  | fuel + 1, i, j =>
    if i < j then
      let h := (i + j) / 2
      if !f h then searchLoop f fuel (h + 1) j else searchLoop f fuel i h
    else i

def search (n : Nat) (f : Nat → Bool) : Nat := searchLoop f n 0 n

section Search

variable {f : Nat → Bool} {k : Nat}

/-- The loop finds the boundary `k` of `f` when it lies in the interval and the fuel covers
the interval's width. -/
theorem searchLoop_eq (fuel : Nat) {i j : Nat} (hf : ∀ x, i ≤ x → x < j → (f x = true ↔ k ≤ x))
    (hi : i ≤ k) (hj : k ≤ j) (hfuel : j - i ≤ fuel) : searchLoop f fuel i j = k := by
  induction fuel generalizing i j with
  | zero =>
    simp only [searchLoop]
    omega
  | succ fuel ih =>
    simp only [searchLoop]
    split
    · rename_i hij
      have hlo : i ≤ (i + j) / 2 := by omega
      have hhi : (i + j) / 2 < j := by omega
      cases hh : f ((i + j) / 2) with
      | false =>
        -- the middle is before the boundary: search the upper half
        have hk : (i + j) / 2 < k := by
          by_contra hle
          have := (hf _ hlo hhi).mpr (by omega)
          rw [hh] at this
          cases this
        simp only [Bool.not_false, if_true]
        exact ih (fun x hx hxj => hf x (by omega) hxj) (by omega) hj (by omega)
      | true =>
        -- the middle is at or after the boundary: search the lower half
        have hk : k ≤ (i + j) / 2 := (hf _ hlo hhi).mp hh
        simp only [Bool.not_true]
        exact ih (fun x hx hxj => hf x hx (by omega)) hi hk (by omega)
    · omega

theorem search_eq {n : Nat} (hk : k ≤ n) (hf : ∀ x < n, f x = true ↔ k ≤ x) : search n f = k :=
  searchLoop_eq n (fun x _ hx => hf x hx) (Nat.zero_le k) hk (by omega)

end Search

section Classes

variable {α : Type} (c : α → Nat)

theorem countP_lt_succ (k : Nat) (l : List α) :
    l.countP (fun a => c a < k + 1) = l.countP (fun a => c a < k) + l.countP (fun a => c a = k) := by
  induction l with
  | nil => rfl
  | cons a l ih =>
    simp only [List.countP_cons, ih, decide_eq_true_eq]
    by_cases hlt : c a < k
    · have hne : c a ≠ k := by omega
      simp [hlt, hne, show c a < k + 1 by omega]
      omega
    · by_cases heq : c a = k
      · simp [heq]
        omega
      · simp [hlt, heq, show ¬c a < k + 1 by omega]

/-- In a list sorted by `c`, the element at index `i` (counted from `n`) has a class below `k`
exactly when `i` is before the block of elements of class `k` or above. -/
theorem lt_iff_lt_countP {l : List α} (hl : l.Pairwise fun a b => c a ≤ c b) (k n : Nat)
    {x : α × Nat} (hx : x ∈ l.zipIdx n) : c x.1 < k ↔ x.2 < n + l.countP (fun a => c a < k) := by
  induction l generalizing n with
  | nil => simp at hx
  | cons a l ih =>
    rw [List.pairwise_cons] at hl
    rw [List.zipIdx_cons, List.mem_cons] at hx
    by_cases ha : c a < k
    · have hcount : (a :: l).countP (fun a => c a < k) = l.countP (fun a => c a < k) + 1 := by
        simp [ha]
      rw [hcount]
      rcases hx with rfl | hx
      · simp [ha]
      · rw [ih hl.2 (n + 1) hx]
        omega
    · -- the head is of class `k` or above, so is every element after it
      have hrest : l.countP (fun a => c a < k) = 0 := by
        rw [List.countP_eq_zero]
        intro b hb
        have := hl.1 b hb
        simp only [decide_eq_true_eq]
        omega
      have hcount : (a :: l).countP (fun a => c a < k) = 0 := by
        simp [ha, hrest]
      rw [hcount, Nat.add_zero]
      rcases hx with rfl | hx
      · simp [ha]
      · obtain ⟨hn, -, hmem⟩ := List.mem_zipIdx (x := x.1) (i := x.2) hx
        have hge : c a ≤ c x.1 := by
          apply hl.1
          rw [hmem]
          exact List.getElem_mem _
        omega

end Classes

end SortSearch
