import Mathlib.Data.List.Basic

/-! Render trees of path patterns (`interfaces/prompting/patterns/render.go`): the node
types, `nodeEqual`, `NumVariants` in Go's 64-bit `int`, the `optimize` passes of `parse`,
and the naive expansion that says what a tree stands for. -/

namespace Snapd.Patterns

/-- A `renderNode`. An `alt` keeps its first alternative apart: `parseAlt` always parses
one item before it can stop, so the source's "0-length alt" error cannot be built. -/
inductive RenderNode (α : Type) where
  | literal (text : List α)
  | seq (items : List (RenderNode α))
  | alt (first : RenderNode α) (rest : List (RenderNode α))
  deriving Repr

namespace RenderNode

variable {α : Type}

section Equal

variable [DecidableEq α]

mutual
/-- `nodeEqual`: recursive equality of render nodes, with the node kind compared first. -/
def nodeEqual : RenderNode α → RenderNode α → Bool
  | .literal a, .literal b => a = b
  | .seq as, .seq bs => nodeEqualList as bs
  -- the first alternative and then the rest, element by element as the source's loop does
  | .alt a as, .alt b bs => nodeEqual a b && nodeEqualList as bs
  | _, _ => false
def nodeEqualList : List (RenderNode α) → List (RenderNode α) → Bool
  | [], [] => true
  | a :: as, b :: bs => nodeEqual a b && nodeEqualList as bs
  | _, _ => false
end

mutual
theorem nodeEqual_iff : (a b : RenderNode α) → nodeEqual a b = true ↔ a = b
  | .literal a, .literal b => by simp [nodeEqual]
  | .seq as, .seq bs => by simp [nodeEqual, nodeEqualList_iff as bs]
  | .alt a as, .alt b bs => by simp [nodeEqual, nodeEqual_iff a b, nodeEqualList_iff as bs]
  | .literal _, .seq _ | .literal _, .alt _ _ | .seq _, .literal _ | .seq _, .alt _ _
  | .alt _ _, .literal _ | .alt _ _, .seq _ => by simp [nodeEqual]
theorem nodeEqualList_iff : (as bs : List (RenderNode α)) → nodeEqualList as bs = true ↔ as = bs
  | [], [] => by simp [nodeEqualList]
  | a :: as, b :: bs => by simp [nodeEqualList, nodeEqual_iff a b, nodeEqualList_iff as bs]
  | [], _ :: _ | _ :: _, [] => by simp [nodeEqualList]
end

instance : DecidableEq (RenderNode α) := fun a b => decidable_of_iff _ (nodeEqual_iff a b)

end Equal

mutual
/-- `NumVariants`, computed as the source does in Go's 64-bit `int`: products for a `seq`
and sums for an `alt`, each wrapping modulo 2^64. -/
def numVariants : RenderNode α → Int64
  | .literal _ => 1
  | .seq items => numVariantsSeq 1 items
  | .alt first rest => numVariantsAlt (0 + numVariants first) rest
/-- The loop `num *= n[i].NumVariants()` of `seq.NumVariants`. -/
def numVariantsSeq : Int64 → List (RenderNode α) → Int64
  | num, [] => num
  | num, n :: ns => numVariantsSeq (num * numVariants n) ns
/-- The loop `num += n[i].NumVariants()` of `alt.NumVariants`. -/
def numVariantsAlt : Int64 → List (RenderNode α) → Int64
  | num, [] => num
  | num, n :: ns => numVariantsAlt (num + numVariants n) ns
end

mutual
/-- The exact number of variants, over unbounded naturals. -/
def count : RenderNode α → Nat
  | .literal _ => 1
  | .seq items => countSeq items
  | .alt first rest => count first + countAlt rest
def countSeq : List (RenderNode α) → Nat
  | [] => 1
  | n :: ns => count n * countSeq ns
def countAlt : List (RenderNode α) → Nat
  | [] => 0
  | n :: ns => count n + countAlt ns
end

mutual
/-- The naive expansion: a `seq` enumerates its children's choices in lexicographic
order with the last child varying fastest, an `alt` lists its alternatives in turn. -/
def expand : RenderNode α → List (List α)
  | .literal text => [text]
  | .seq items => expandSeq items
  | .alt first rest => expand first ++ expandAlt rest
def expandSeq : List (RenderNode α) → List (List α)
  | [] => [[]]
  | n :: ns => (expand n).flatMap fun x => (expandSeq ns).map (x ++ ·)
def expandAlt : List (RenderNode α) → List (List α)
  | [] => []
  | n :: ns => expand n ++ expandAlt ns
end

mutual
theorem numVariants_eq_ofNat : (n : RenderNode α) → numVariants n = Int64.ofNat (count n)
  | .literal _ => rfl
  | .seq items => by
    rw [numVariants, count, numVariantsSeq_eq 1 items, Int64.one_mul]
  | .alt first rest => by
    rw [numVariants, count, numVariantsAlt_eq, numVariants_eq_ofNat first, Int64.zero_add,
      Int64.ofNat_add]
theorem numVariantsSeq_eq : (num : Int64) → (ns : List (RenderNode α)) →
    numVariantsSeq num ns = num * Int64.ofNat (countSeq ns)
  | num, [] => by simp [numVariantsSeq, countSeq]
  | num, n :: ns => by
    rw [numVariantsSeq, numVariantsSeq_eq _ ns, numVariants_eq_ofNat n, countSeq,
      Int64.ofNat_mul, Int64.mul_assoc]
theorem numVariantsAlt_eq : (num : Int64) → (ns : List (RenderNode α)) →
    numVariantsAlt num ns = num + Int64.ofNat (countAlt ns)
  | num, [] => by simp [numVariantsAlt, countAlt]
  | num, n :: ns => by
    rw [numVariantsAlt, numVariantsAlt_eq _ ns, numVariants_eq_ofNat n, countAlt,
      Int64.ofNat_add, Int64.add_assoc]
end

mutual
theorem length_expand : (n : RenderNode α) → (expand n).length = count n
  | .literal _ => rfl
  | .seq items => by rw [expand, count, length_expandSeq]
  | .alt first rest => by
    rw [expand, count, List.length_append, length_expand first, length_expandAlt]
theorem length_expandSeq : (ns : List (RenderNode α)) → (expandSeq ns).length = countSeq ns
  | [] => rfl
  | n :: ns => by
    have hrow : ∀ x ∈ expand n, ((expandSeq ns).map (x ++ ·)).length = countSeq ns := by
      intro x _
      rw [List.length_map, length_expandSeq ns]
    rw [expandSeq, countSeq, List.length_flatMap, List.map_congr_left hrow, List.map_const',
      List.sum_replicate_nat, length_expand n]
theorem length_expandAlt : (ns : List (RenderNode α)) → (expandAlt ns).length = countAlt ns
  | [] => rfl
  | n :: ns => by
    rw [expandAlt, countAlt, List.length_append, length_expand n, length_expandAlt ns]
end

mutual
theorem count_pos : (n : RenderNode α) → 0 < count n
  | .literal _ => Nat.one_pos
  | .seq items => by rw [count]; exact countSeq_pos items
  | .alt first rest => by rw [count]; exact Nat.add_pos_left (count_pos first) _
theorem countSeq_pos : (ns : List (RenderNode α)) → 0 < countSeq ns
  | [] => Nat.one_pos
  | n :: ns => by rw [countSeq]; exact Nat.mul_pos (count_pos n) (countSeq_pos ns)
end

section Optimize

variable [DecidableEq α]

/-- One pass of the loop of `seq.optimize`: empty literals are dropped, adjacent literals
are collected in the pending text `b`, which is flushed before any other node. -/
def optimizeStep (acc : List (RenderNode α) × List α) (item : RenderNode α) :
    List (RenderNode α) × List α :=
  match item with
  | .literal l => if l = [] then acc else (acc.1, acc.2 ++ l)
  | _ => if acc.2 = [] then (acc.1 ++ [item], []) else (acc.1 ++ [.literal acc.2, item], [])

/-- `seq.optimize`: join adjacent literals, then reduce an empty seq to `literal("")` and a
seq of one element to that element. -/
def seqOptimize (items : List (RenderNode α)) : RenderNode α :=
  let acc := items.foldl optimizeStep ([], [])
  let newSeq := if acc.2 = [] then acc.1 else acc.1 ++ [.literal acc.2]
  match newSeq with
  | [] => .literal []
  | [n] => n
  | ns => .seq ns

omit [DecidableEq α] in
theorem foldl_optimizeStep_literals (texts : List (List α)) (acc : List (RenderNode α))
    (pending : List α) :
    (texts.map RenderNode.literal).foldl optimizeStep (acc, pending) =
      (acc, pending ++ texts.flatten) := by
  induction texts generalizing pending with
  | nil => simp
  | cons t texts ih =>
    rw [List.map_cons, List.foldl_cons, optimizeStep]
    split
    · rename_i ht
      rw [ih, ht]
      simp
    · rw [ih]
      simp

omit [DecidableEq α] in
theorem seqOptimize_literals (texts : List (List α)) :
    seqOptimize (texts.map RenderNode.literal) = .literal texts.flatten := by
  unfold seqOptimize
  rw [foldl_optimizeStep_literals]
  by_cases h : texts.flatten = []
  · simp [h]
  · simp [h]

/-- The loop of `alt.optimize`: an item is kept unless an equal one was kept before. -/
def altKeep (seen : List (RenderNode α)) : List (RenderNode α) → List (RenderNode α)
  | [] => []
  | item :: items =>
    if seen.any (fun s => nodeEqual s item) then altKeep seen items
    else item :: altKeep (seen ++ [item]) items

/-- `alt.optimize`: drop repeated alternatives, and reduce an alt of one item to it. -/
def altOptimize (first : RenderNode α) (rest : List (RenderNode α)) : RenderNode α :=
  match altKeep [first] rest with
  | [] => first
  | n :: ns => .alt first (n :: ns)

end Optimize

end RenderNode

end Snapd.Patterns
