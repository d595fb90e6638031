import Mathlib.Algebra.Group.Int.Defs
import Snapd.Quota.Resources
import Snapd.Naming.Validate

/-! Quota groups (`snap/quota/quota.go`). A group's pointers to its parent and sub-groups are
the tree it sits in: a `QuotaTree` holds a group and its sub-groups in order, and the parents
of a group are the groups on the way to it from the root, nearest first. `allQuotas`, the map
`getQuotaAllocations` fills, is a list of entries by group name with the latest write first.
The machine's `runtime.NumCPU()` is the parameter `numCPU`. -/

namespace Snapd.Quota

/-- Go's `==` on strings, through which membership in a list of strings is decided. -/
local instance lawfulBEqString : LawfulBEq (List Char) := inferInstance

open Snapd.Naming

structure GroupQuotaCPU where
  count : Int
  percentage : Int
  cpuSet : List Int
  deriving DecidableEq, Repr

structure GroupQuotaJournal where
  size : Nat
  rateEnabled : Bool
  rateCount : Int
  ratePeriod : Int
  deriving DecidableEq, Repr

/-- `Group`, without its pointers; `subGroups` is the field `SubGroups`, the names. -/
structure Group where
  name : List Char
  subGroups : List (List Char)
  memoryLimit : Nat
  cpuLimit : Option GroupQuotaCPU
  threadLimit : Int
  journalLimit : Option GroupQuotaJournal
  parentGroup : List Char
  services : List (List Char)
  deriving DecidableEq, Repr

/-- A group with the sub-groups it points to. -/
inductive QuotaTree where
  | node (grp : Group) (subGroups : List QuotaTree)
  deriving Repr

namespace QuotaTree

mutual
/-- Equality of trees, decided node by node. -/
def beq : QuotaTree → QuotaTree → Bool
  | .node g s, .node g' s' => decide (g = g') && beqList s s'
def beqList : List QuotaTree → List QuotaTree → Bool
  | [], [] => true
  | a :: as, b :: bs => beq a b && beqList as bs
  | _, _ => false
end

mutual
theorem beq_iff : (a b : QuotaTree) → beq a b = true ↔ a = b
  | .node g s, .node g' s' => by simp [beq, beqList_iff s s']
theorem beqList_iff : (as bs : List QuotaTree) → beqList as bs = true ↔ as = bs
  | [], [] => by simp [beqList]
  | a :: as, b :: bs => by simp [beqList, beq_iff a b, beqList_iff as bs]
  | [], _ :: _ | _ :: _, [] => by simp [beqList]
end

instance : DecidableEq QuotaTree := fun a b => decidable_of_iff _ (beq_iff a b)

end QuotaTree

structure GroupQuotaAllocations where
  memoryLimit : Nat
  memoryReservedByChildren : Nat
  cpuLimit : Int
  cpuReservedByChildren : Int
  threadsLimit : Int
  threadsReservedByChildren : Int
  cpuSetLimit : List Int
  cpuSetReservedByChildren : List Int
  deriving DecidableEq, Repr

/-- The map `getQuotaAllocations` fills, by group name, the latest entry first. -/
abbrev AllQuotas := List (List Char × GroupQuotaAllocations)

/-- `quantity.Size` arithmetic: `uint64`. -/
def sizeAdd (a b : Nat) : Nat := (a + b) % 2 ^ 64

/-- `quantity.Size` subtraction, wrapping below zero as `uint64` does. -/
def sizeSub (a b : Nat) : Nat := (a + (2 ^ 64 - b % 2 ^ 64)) % 2 ^ 64

def maxq (a b : Nat) : Nat := if a > b then a else b

/-- `max` of `quota.go` -/
def maxInt (a b : Int) : Int := if a > b then a else b

/-- Go `int` arithmetic: a result wraps to 64-bit two's complement. -/
def goInt (x : Int) : Int := (x + 2 ^ 63) % 2 ^ 64 - 2 ^ 63

namespace Group

def getLocalCPUSetQuota (grp : Group) : List Int :=
  match grp.cpuLimit with
  | some cpu => cpu.cpuSet
  | none => []

/-- The loop of `GetCPUSetQuota` over the parents. -/
def inheritedCPUSet : List Group → List Int
  | [] => []
  | parent :: parents =>
    match parent.cpuLimit with
    | some cpu => if cpu.cpuSet ≠ [] then cpu.cpuSet else inheritedCPUSet parents
    | none => inheritedCPUSet parents

/-- `GetCPUSetQuota`: the group's own cpu set, or that of its nearest parent that has one. -/
def getCPUSetQuota (grp : Group) (parents : List Group) : List Int :=
  if grp.getLocalCPUSetQuota ≠ [] then grp.getLocalCPUSetQuota else inheritedCPUSet parents

/-- `GetLocalCPUQuota`: a count of `0` stands for all the cpus the group may use. -/
def getLocalCPUQuota (numCPU : Int) (grp : Group) (parents : List Group) : Int × Int :=
  match grp.cpuLimit with
  | none => (0, 0)
  | some cpu =>
    if cpu.percentage = 0 then (0, 0)
    else if cpu.count ≠ 0 then (cpu.count, cpu.percentage)
    else
      let cpuSetCount : Int := (grp.getCPUSetQuota parents).length
      let cpuCount := if cpuSetCount ≠ 0 ∧ cpuSetCount < numCPU then cpuSetCount else numCPU
      (cpuCount, cpu.percentage)

def getCurrentCPUAllocation (numCPU : Int) (grp : Group) (parents : List Group) : Int :=
  goInt ((grp.getLocalCPUQuota numCPU parents).1 * (grp.getLocalCPUQuota numCPU parents).2)

/-- `GetQuotaResources`: the limits the group has, as `ResourcesBuilder` builds them. -/
def getQuotaResources (grp : Group) : Resources where
  memory := if grp.memoryLimit ≠ 0 then some grp.memoryLimit else none
  cpu := match grp.cpuLimit with
    | some cpu => if cpu.count ≠ 0 ∨ cpu.percentage ≠ 0 then some ⟨cpu.count, cpu.percentage⟩ else none
    | none => none
  cpuSet := match grp.cpuLimit with
    | some cpu => if cpu.cpuSet ≠ [] then some cpu.cpuSet else none
    | none => none
  threads := if grp.threadLimit ≠ 0 then some grp.threadLimit else none
  journal := grp.journalLimit.map fun j =>
    ⟨if j.size ≠ 0 then some j.size else none,
      if j.rateEnabled then some ⟨j.rateCount, j.ratePeriod⟩ else none⟩

end Group

/-- `sliceUniqueAndSort`: the numbers in ascending order, each once. -/
def sliceUniqueAndSort (input : List Int) : List Int :=
  (input.insertionSort (· ≤ ·)).eraseDups

/-- The allocations of a group before its sub-groups are counted. -/
def ownAllocations (numCPU : Int) (grp : Group) (parents : List Group) : GroupQuotaAllocations where
  memoryLimit := grp.memoryLimit
  memoryReservedByChildren := 0
  cpuLimit := grp.getCurrentCPUAllocation numCPU parents
  cpuReservedByChildren := 0
  threadsLimit := grp.threadLimit
  threadsReservedByChildren := 0
  cpuSetLimit := grp.getLocalCPUSetQuota
  cpuSetReservedByChildren := []

/-- One round of the loop of `getQuotaAllocations` over the sub-groups: a sub-group reserves
its limit, or what its own sub-groups reserve when that is more. -/
def addSubGroup (limits sub : GroupQuotaAllocations) : GroupQuotaAllocations :=
  { limits with
    memoryReservedByChildren := sizeAdd limits.memoryReservedByChildren
      (maxq sub.memoryLimit sub.memoryReservedByChildren)
    cpuReservedByChildren := goInt (limits.cpuReservedByChildren +
      maxInt sub.cpuLimit sub.cpuReservedByChildren)
    threadsReservedByChildren := goInt (limits.threadsReservedByChildren +
      maxInt sub.threadsLimit sub.threadsReservedByChildren)
    cpuSetReservedByChildren :=
      if sub.cpuSetLimit.length > 0 then limits.cpuSetReservedByChildren ++ sub.cpuSetLimit
      else if sub.cpuSetReservedByChildren.length > 0 then
        limits.cpuSetReservedByChildren ++ sub.cpuSetReservedByChildren
      else limits.cpuSetReservedByChildren }

mutual
/-- `getQuotaAllocations`: the allocations of every group of the tree, each entered in
`allQuotas` after those of its sub-groups. -/
def getQuotaAllocations (numCPU : Int) (parents : List Group) :
    QuotaTree → AllQuotas → AllQuotas × GroupQuotaAllocations
  | .node grp subGroups, allQuotas =>
    let (allQuotas, limits) := subGroupAllocations numCPU (grp :: parents) subGroups allQuotas
      (ownAllocations numCPU grp parents)
    let limits := if limits.cpuSetReservedByChildren.length > 0 then
        { limits with cpuSetReservedByChildren := sliceUniqueAndSort limits.cpuSetReservedByChildren }
      else limits
    ((grp.name, limits) :: allQuotas, limits)
/-- The loop of `getQuotaAllocations` over the sub-groups. -/
def subGroupAllocations (numCPU : Int) (parents : List Group) :
    List QuotaTree → AllQuotas → GroupQuotaAllocations → AllQuotas × GroupQuotaAllocations
  | [], allQuotas, limits => (allQuotas, limits)
  | t :: ts, allQuotas, limits =>
    let (allQuotas, sub) := getQuotaAllocations numCPU parents t allQuotas
    subGroupAllocations numCPU parents ts allQuotas (addSubGroup limits sub)
end

namespace Group

/-- The loop over the parents of `validateMemoryResourceFit`, up to the nearest one with a
memory limit. -/
def memoryParentsFit (allQuotas : AllQuotas) (memoryLimit memoryReserved : Nat) :
    List Group → Except String Unit
  | [] => .ok ()
  | parent :: parents =>
    match allQuotas.lookup parent.name with
    | some limits =>
      if limits.memoryLimit ≠ 0 then
        let memoryAvailable := sizeSub limits.memoryLimit
          (sizeSub limits.memoryReservedByChildren memoryReserved)
        if memoryLimit > memoryAvailable then
          .error ("sub-group memory limit of " ++ iecString memoryLimit ++ " is too large to fit " ++
            "inside group " ++ quoted parent.name ++ " remaining quota space " ++
            iecString memoryAvailable)
        else .ok ()
      else memoryParentsFit allQuotas memoryLimit memoryReserved parents
    | none => memoryParentsFit allQuotas memoryLimit memoryReserved parents

def validateMemoryResourceFit (grp : Group) (parents : List Group) (allQuotas : AllQuotas)
    (memoryLimit : Nat) : Except String Unit :=
  match allQuotas.lookup grp.name with
  | some currentLimits =>
    if currentLimits.memoryReservedByChildren > memoryLimit then
      .error ("group memory limit of " ++ iecString memoryLimit ++ " is too small to fit current " ++
        "subgroup usage of " ++ iecString currentLimits.memoryReservedByChildren)
    -- a limit that goes down is not checked against the parents
    else if memoryLimit < grp.memoryLimit then .ok ()
    else memoryParentsFit allQuotas memoryLimit
      (maxq grp.memoryLimit currentLimits.memoryReservedByChildren) parents
  | none => memoryParentsFit allQuotas memoryLimit grp.memoryLimit parents

/-- The loop over the parents of `validateCPUResourceFit`, up to the nearest one with a cpu
limit or a cpu set. -/
def cpuParentsFit (allQuotas : AllQuotas) (cpuRequested existingCPUAllocation : Int) :
    List Group → Except String Unit
  | [] => .ok ()
  | parent :: parents =>
    match allQuotas.lookup parent.name with
    | some limits =>
      if limits.cpuLimit ≠ 0 then
        let cpuAvailable :=
          goInt (limits.cpuLimit - goInt (limits.cpuReservedByChildren - existingCPUAllocation))
        if cpuRequested > cpuAvailable then
          .error ("sub-group cpu limit of " ++ intString cpuRequested ++ "% is too large to fit " ++
            "inside group " ++ quoted parent.name ++ " remaining quota space " ++
            intString cpuAvailable ++ "%")
        else .ok ()
      else if limits.cpuSetLimit.length > 0 then
        let maxCPUAvailableInSet : Int := goInt (limits.cpuSetLimit.length * 100)
        if cpuRequested > maxCPUAvailableInSet then
          .error ("sub-group cpu limit of " ++ intString cpuRequested ++ "% is too large to fit " ++
            "inside group " ++ quoted parent.name ++ " with allowed CPU set " ++
            intsString limits.cpuSetLimit)
        else .ok ()
      else cpuParentsFit allQuotas cpuRequested existingCPUAllocation parents
    | none => cpuParentsFit allQuotas cpuRequested existingCPUAllocation parents

/-- The cpu time `validateCPUResourceFit` asks for: the count times the percentage, where a
count of `0` is the size of the cpu set the group has or inherits now, or all the cpus. -/
def cpuRequested (numCPU : Int) (grp : Group) (parents : List Group) (cpu : ResourceCPU) : Int :=
  if cpu.count = 0 then
    let cpuSetCount : Int := (grp.getCPUSetQuota parents).length
    goInt ((if cpuSetCount = 0 then numCPU else cpuSetCount) * cpu.percentage)
  else goInt (cpu.count * cpu.percentage)

def validateCPUResourceFit (numCPU : Int) (grp : Group) (parents : List Group)
    (allQuotas : AllQuotas) (cpu : ResourceCPU) : Except String Unit :=
  let cpuRequested := grp.cpuRequested numCPU parents cpu
  match allQuotas.lookup grp.name with
  | some currentLimits =>
    if currentLimits.cpuReservedByChildren > cpuRequested then
      .error ("group cpu limit of " ++ intString cpuRequested ++ "% is less than current " ++
        "subgroup usage of " ++ intString currentLimits.cpuReservedByChildren ++ "%")
    else if cpuRequested < currentLimits.cpuLimit then .ok ()
    else cpuParentsFit allQuotas cpuRequested
      (maxInt currentLimits.cpuLimit currentLimits.cpuReservedByChildren) parents
  | none => cpuParentsFit allQuotas cpuRequested 0 parents

/-- `isSuperset a b`: every element of `b` is in `a`. -/
def isSuperset (a b : List Int) : Bool := b.all fun b1 => a.contains b1

/-- The loop over the parents of `validateCPUsAllowedResourceFit`, up to the nearest one with
a cpu set. -/
def cpuSetParentsFit (allQuotas : AllQuotas) (cpusAllowed : List Int) :
    List Group → Except String Unit
  | [] => .ok ()
  | parent :: parents =>
    match allQuotas.lookup parent.name with
    | some limits =>
      if limits.cpuSetLimit.length ≠ 0 then
        if !isSuperset limits.cpuSetLimit cpusAllowed then
          .error ("sub-group cpu-set " ++ intsString cpusAllowed ++ " is not a subset of group " ++
            quoted parent.name ++ " cpu-set " ++ intsString limits.cpuSetLimit)
        else .ok ()
      else cpuSetParentsFit allQuotas cpusAllowed parents
    | none => cpuSetParentsFit allQuotas cpusAllowed parents

def validateCPUsAllowedResourceFit (grp : Group) (parents : List Group) (allQuotas : AllQuotas)
    (cpusAllowed : List Int) : Except String Unit :=
  match allQuotas.lookup grp.name with
  | some currentLimits =>
    if !isSuperset cpusAllowed currentLimits.cpuSetReservedByChildren then
      .error ("group cpu-set " ++ intsString cpusAllowed ++ " is not a superset of current " ++
        "subgroup usage of " ++ intsString currentLimits.cpuSetReservedByChildren)
    else if isSuperset grp.getLocalCPUSetQuota cpusAllowed then .ok ()
    else cpuSetParentsFit allQuotas cpusAllowed parents
  | none => cpuSetParentsFit allQuotas cpusAllowed parents

/-- The loop over the parents of `validateThreadResourceFit`, up to the nearest one with a
thread limit. -/
def threadParentsFit (allQuotas : AllQuotas) (threadLimit threadsReserved : Int) :
    List Group → Except String Unit
  | [] => .ok ()
  | parent :: parents =>
    match allQuotas.lookup parent.name with
    | some limits =>
      if limits.threadsLimit ≠ 0 then
        let threadsAvailable := goInt (limits.threadsLimit -
          goInt (limits.threadsReservedByChildren - threadsReserved))
        if threadLimit > threadsAvailable then
          .error ("sub-group thread limit of " ++ intString threadLimit ++ " is too large to fit " ++
            "inside group " ++ quoted parent.name ++ " remaining quota space " ++
            intString threadsAvailable)
        else .ok ()
      else threadParentsFit allQuotas threadLimit threadsReserved parents
    | none => threadParentsFit allQuotas threadLimit threadsReserved parents

def validateThreadResourceFit (grp : Group) (parents : List Group) (allQuotas : AllQuotas)
    (threadLimit : Int) : Except String Unit :=
  match allQuotas.lookup grp.name with
  | some currentLimits =>
    if currentLimits.threadsReservedByChildren > threadLimit then
      .error ("group thread limit of " ++ intString threadLimit ++ " is too small to fit current " ++
        "subgroup usage of " ++ intString currentLimits.threadsReservedByChildren)
    else if threadLimit < grp.threadLimit then .ok ()
    else threadParentsFit allQuotas threadLimit
      (maxInt grp.threadLimit currentLimits.threadsReservedByChildren) parents
  | none => threadParentsFit allQuotas threadLimit grp.threadLimit parents

/-- `validateQuotasFit`: the allocations of the tree above the group, `upperParent`, then a
check of each limit the request sets. -/
def validateQuotasFit (numCPU : Int) (grp : Group) (parents : List Group)
    (upperParent : QuotaTree) (resourceLimits : Resources) : Except String Unit := do
  let allQuotas := (getQuotaAllocations numCPU [] upperParent []).1
  if let some limit := resourceLimits.memory then
    grp.validateMemoryResourceFit parents allQuotas limit
  if let some cpu := resourceLimits.cpu then
    if cpu.percentage ≠ 0 then grp.validateCPUResourceFit numCPU parents allQuotas cpu
  if let some cpus := resourceLimits.cpuSet then
    if cpus.length ≠ 0 then grp.validateCPUsAllowedResourceFit parents allQuotas cpus
  if let some limit := resourceLimits.threads then
    grp.validateThreadResourceFit parents allQuotas limit

/-- The limits of a request set into the group, as the end of `UpdateQuotaLimits` does: a new
cpu quota replaces the old one, cpu set included, before a new cpu set is put in. -/
def applyLimits (grp : Group) (resourceLimits : Resources) : Group :=
  let grp := match resourceLimits.memory with
    | some limit => { grp with memoryLimit := limit }
    | none => grp
  let grp := match resourceLimits.cpu with
    | some cpu => { grp with cpuLimit := some ⟨cpu.count, cpu.percentage, []⟩ }
    | none => grp
  let grp := match resourceLimits.cpuSet with
    | some cpus => { grp with cpuLimit := some { (grp.cpuLimit.getD ⟨0, 0, []⟩) with cpuSet := cpus } }
    | none => grp
  let grp := match resourceLimits.threads with
    | some limit => { grp with threadLimit := limit }
    | none => grp
  match resourceLimits.journal with
  | some journal =>
    let j := grp.journalLimit.getD ⟨0, false, 0, 0⟩
    let j := match journal.size with
      | some size => { j with size := size }
      | none => j
    let j := match journal.rate with
      | some rate => { j with rateEnabled := true, rateCount := rate.count, ratePeriod := rate.period }
      | none => j
    { grp with journalLimit := some j }
  | none => grp

/-- `UpdateQuotaLimits` of a group under `parents`, in the tree `upperParent`. -/
def updateQuotaLimits (numCPU : Int) (grp : Group) (parents : List Group)
    (upperParent : QuotaTree) (resourceLimits : Resources) : Except String Group := do
  grp.getQuotaResources.validateChange resourceLimits
  grp.validateQuotasFit numCPU parents upperParent resourceLimits
  pure (grp.applyLimits resourceLimits)

def validate (grp : Group) : Except String Unit := do
  validateQuotaGroup grp.name
  if grp.name ∈ ["root".toList, "system".toList, "snapd".toList, "user".toList] then
    throw ("group name " ++ quoted grp.name ++ " reserved")
  grp.getQuotaResources.validate
  if grp.parentGroup ≠ [] ∧ grp.name = grp.parentGroup then
    throw "group has circular parent reference to itself"
  if grp.subGroups.contains grp.name then
    throw "group has circular sub-group reference to itself"
  if grp.services.length > 0 ∧ grp.journalLimit.isSome then
    throw "journal quota is not supported for individual services"

end Group

/-- A group of this name and no limits, as `NewGroup` and `NewSubGroup` make it. -/
def emptyGroup (name parentGroup : List Char) : Group :=
  ⟨name, [], 0, none, 0, none, parentGroup, []⟩

/-- `NewGroup`: the root of a new tree. -/
def newGroup (numCPU : Int) (name : List Char) (resourceLimits : Resources) :
    Except String QuotaTree := do
  let grp := emptyGroup name []
  let grp ← grp.updateQuotaLimits numCPU [] (.node grp []) resourceLimits
  grp.validate
  pure (.node grp [])

/-- `NewSubGroup` on the group `grp` under `parents` with sub-groups `subGroups`, in the tree
`upperParent`: the new group, and the group it is added to. -/
def newSubGroup (numCPU : Int) (grp : Group) (parents : List Group) (upperParent : QuotaTree)
    (name : List Char) (resourceLimits : Resources) : Except String (Group × Group) := do
  let subGrp := emptyGroup name grp.name
  let subGrp ← subGrp.updateQuotaLimits numCPU (grp :: parents) upperParent resourceLimits
  if name = grp.name then
    throw ("cannot use same name " ++ quoted name ++ " for sub group as parent group")
  if grp.services.length ≠ 0 then throw "cannot mix sub groups with services in the same group"
  subGrp.validate
  pure (subGrp, { grp with subGroups := grp.subGroups ++ [name] })

end Snapd.Quota
