import Snapd.Quota.Group
import Mathlib.Logic.Relation

/-! The trees of quota groups that `NewGroup`, `NewSubGroup` and `UpdateQuotaLimits` build,
and what it means for such a tree not to be oversubscribed. A group is found by its address,
the indices of the sub-groups on the way to it from the root. A tree is reachable when
`NewGroup` made its root and each later step is a successful `NewSubGroup` or
`UpdateQuotaLimits` on one of its groups, with the tree's root as `upperParent`. -/

namespace Snapd.Quota

namespace QuotaTree

/-- The group at the root of a tree. -/
def grp : QuotaTree → Group
  | .node grp _ => grp

/-- The sub-trees of the root. -/
def subTrees : QuotaTree → List QuotaTree
  | .node _ subGroups => subGroups

/-- The tree at an address, `none` if the address leaves the tree. -/
def subtreeAt (t : QuotaTree) : List Nat → Option QuotaTree
  | [] => some t
  | i :: rest => t.subTrees[i]?.bind fun s => s.subtreeAt rest

/-- The groups above an address, the nearest first: the `parentGroup` pointers of the group
there. -/
def parentsAt (t : QuotaTree) : List Nat → List Group
  | [] => []
  | i :: rest =>
    match t.subTrees[i]? with
    | some s => s.parentsAt rest ++ [t.grp]
    | none => []

/-- The tree with the sub-tree at an address replaced. -/
def replaceAt (t : QuotaTree) (u : QuotaTree) : List Nat → QuotaTree
  | [] => u
  | i :: rest =>
    match t.subTrees[i]? with
    | some s => .node t.grp (t.subTrees.set i (s.replaceAt u rest))
    | none => t

end QuotaTree

/-- One successful call on a group of the tree, `numCPU` being what `runtime.NumCPU()`
returns. -/
inductive QuotaStep (numCPU : Int) : QuotaTree → QuotaTree → Prop
  | newSubGroup {t : QuotaTree} {grp subGrp grp' : Group} {subGroups : List QuotaTree}
      (path : List Nat) (name : List Char) (resourceLimits : Resources)
      (hat : t.subtreeAt path = some (.node grp subGroups))
      (hnew : newSubGroup numCPU grp (t.parentsAt path) t name resourceLimits = .ok (subGrp, grp')) :
      QuotaStep numCPU t (t.replaceAt (.node grp' (subGroups ++ [.node subGrp []])) path)
  | update {t : QuotaTree} {grp grp' : Group} {subGroups : List QuotaTree}
      (path : List Nat) (resourceLimits : Resources)
      (hat : t.subtreeAt path = some (.node grp subGroups))
      (hupdate : grp.updateQuotaLimits numCPU (t.parentsAt path) t resourceLimits = .ok grp') :
      QuotaStep numCPU t (t.replaceAt (.node grp' subGroups) path)

/-- A tree that `NewGroup` and then successful steps build. -/
def Reachable (numCPU : Int) (t : QuotaTree) : Prop :=
  ∃ name resourceLimits root, newGroup numCPU name resourceLimits = .ok root ∧
    Relation.ReflTransGen (QuotaStep numCPU) root t

/-! ## Oversubscription

What a group reserves of a resource, bottom up as `getQuotaAllocations` counts it (without
the wrapping of `quantity.Size`): its own limit, or what its sub-groups reserve when that is
more. The cpu limit of a group is the product `GetLocalCPUQuota` returns. -/

/-- The resources a quota group limits and its sub-groups share. -/
inductive Kind where
  | memory
  | threads
  | cpu
  deriving DecidableEq, Repr

/-- The limit a group sets on a resource, `0` for none. -/
def Kind.limit (numCPU : Int) : Kind → Group → List Group → Int
  | .memory, grp, _ => grp.memoryLimit
  | .threads, grp, _ => grp.threadLimit
  | .cpu, grp, parents => grp.getCurrentCPUAllocation numCPU parents

mutual
/-- What a group reserves of a resource. -/
def reserved (numCPU : Int) (k : Kind) (parents : List Group) : QuotaTree → Int
  | .node grp subGroups =>
    max (k.limit numCPU grp parents) (reservedByChildren numCPU k (grp :: parents) subGroups)
/-- What the sub-groups of a group reserve together. -/
def reservedByChildren (numCPU : Int) (k : Kind) (parents : List Group) : List QuotaTree → Int
  | [] => 0
  | t :: ts => reserved numCPU k parents t + reservedByChildren numCPU k parents ts
end

/-- No group with a limit on the resource has sub-groups that reserve more than it. -/
inductive NotOversubscribed (numCPU : Int) (k : Kind) : List Group → QuotaTree → Prop
  | node {parents : List Group} {grp : Group} {subGroups : List QuotaTree}
      (fits : k.limit numCPU grp parents ≠ 0 →
        reservedByChildren numCPU k (grp :: parents) subGroups ≤ k.limit numCPU grp parents)
      (sub : ∀ s ∈ subGroups, NotOversubscribed numCPU k (grp :: parents) s) :
      NotOversubscribed numCPU k parents (.node grp subGroups)

/-- A parent of `cpu` when its limit is `100%` of one cpu, and its child when that holds one
cpu of a set, before and after the child asks for `100%` of each cpu of a set of four. -/
def cpuParent : Group := ⟨"parent".toList, [], 0, some ⟨1, 100, []⟩, 0, none, [], []⟩

def cpuChild (cpu : GroupQuotaCPU) : Group := ⟨"child".toList, [], 0, some cpu, 0, none,
  "parent".toList, []⟩

/-- `UpdateQuotaLimits` with a cpu count of `0` and a new cpu set sizes the request from the
set the group has before the update: on a machine of four cpus, a child holding one cpu of its
parent's `100%` asks for `100%` of each of four cpus, is checked as asking for `100%`, and
then reserves `400%`. -/
theorem count_zero_cpu_update_oversubscribes_parent :
    Reachable 4 (.node { cpuParent with subGroups := ["child".toList] }
        [.node (cpuChild ⟨0, 100, [0, 1, 2, 3]⟩) []]) ∧
      ¬ NotOversubscribed 4 .cpu [] (.node { cpuParent with subGroups := ["child".toList] }
        [.node (cpuChild ⟨0, 100, [0, 1, 2, 3]⟩) []]) := by
  constructor
  · refine ⟨"parent".toList, ⟨none, some ⟨1, 100⟩, none, none, none⟩, .node cpuParent [],
      by decide, ?_⟩
    -- the child is made with a cpu set of one cpu, then given the cpu quota and a set of four
    have hsub : QuotaStep 4 (.node cpuParent [])
        (.node { cpuParent with subGroups := ["child".toList] } [.node (cpuChild ⟨0, 0, [0]⟩) []]) :=
      QuotaStep.newSubGroup [] "child".toList ⟨none, none, some [0], none, none⟩ rfl (by decide)
    have hupdate : QuotaStep 4
        (.node { cpuParent with subGroups := ["child".toList] } [.node (cpuChild ⟨0, 0, [0]⟩) []])
        (.node { cpuParent with subGroups := ["child".toList] }
          [.node (cpuChild ⟨0, 100, [0, 1, 2, 3]⟩) []]) :=
      QuotaStep.update [0] ⟨none, some ⟨0, 100⟩, some [0, 1, 2, 3], none, none⟩ rfl (by decide)
    exact (Relation.ReflTransGen.single hsub).tail hupdate
  · intro h
    cases h with
    | node fits _ =>
      have hover := fits (by decide)
      revert hover
      decide

end Snapd.Quota
