import Mathlib.Data.List.Basic

/-! Go's three-way comparisons, which return `-1`, `0` or `1`. One that is `compare` on a key
into a type with a lawful order is a total preorder: it is antisymmetric and reflexive, and
`≤ 0` is transitive. Lists of keys compare lexicographically, as core's `Ord (List α)`. -/

namespace GoCompare

/-- An `Ordering` as the `-1`, `0` or `1` of a Go comparison. -/
def ofOrdering : Ordering → Int
  | .lt => -1
  | .eq => 0
  | .gt => 1

@[simp] theorem ofOrdering_swap (o : Ordering) : ofOrdering o.swap = -ofOrdering o := by
  cases o <;> rfl

@[simp] theorem ofOrdering_eq_zero {o : Ordering} : ofOrdering o = 0 ↔ o = .eq := by
  cases o <;> decide

theorem ofOrdering_nonpos {o : Ordering} : ofOrdering o ≤ 0 ↔ o.isLE = true := by
  cases o <;> decide

theorem ofOrdering_compare_int (x y : Int) :
    ofOrdering (compare x y) = if x < y then -1 else if x > y then 1 else 0 := by
  show ofOrdering (if x < y then .lt else if x = y then .eq else .gt) = _
  split_ifs <;> first | rfl | omega

theorem compare_cons_of_ne {β : Type} [Ord β] {x y : β} (xs ys : List β)
    (h : compare x y ≠ .eq) : compare (x :: xs) (y :: ys) = compare x y := by
  rw [List.compare_cons_cons]
  cases hxy : compare x y
  · rfl
  · exact absurd hxy h
  · rfl

theorem compare_cons_of_eq {β : Type} [Ord β] {x y : β} (xs ys : List β)
    (h : compare x y = .eq) : compare (x :: xs) (y :: ys) = compare xs ys := by
  rw [List.compare_cons_cons, h]
  rfl

theorem compare_singleton {β : Type} [Ord β] (x y : β) : compare [x] [y] = compare x y := by
  rw [List.compare_cons_cons]
  cases compare x y <;> rfl

section Key

variable {α β : Type} [Ord β] [Std.TransOrd β] (key : α → β)

theorem ofOrdering_compare_swap (a b : α) :
    ofOrdering (compare (key a) (key b)) = -ofOrdering (compare (key b) (key a)) := by
  rw [Std.OrientedOrd.eq_swap, ofOrdering_swap]

theorem ofOrdering_compare_self (a : α) : ofOrdering (compare (key a) (key a)) = 0 := by
  rw [Std.ReflOrd.compare_self]
  rfl

theorem ofOrdering_compare_trans {a b c : α} (hab : ofOrdering (compare (key a) (key b)) ≤ 0)
    (hbc : ofOrdering (compare (key b) (key c)) ≤ 0) :
    ofOrdering (compare (key a) (key c)) ≤ 0 :=
  ofOrdering_nonpos.mpr
    (Std.TransOrd.isLE_trans (ofOrdering_nonpos.mp hab) (ofOrdering_nonpos.mp hbc))

end Key

end GoCompare
