import Mathlib.Data.List.Sort
import Mathlib.Algebra.Group.Nat.Defs

/-! The resource limits of quota groups (`snap/quota/resources.go`): the limits a request
carries, their validation on their own (`Resources.Validate`) and against the limits a group
has (`Resources.ValidateChange`). A limit that is absent is `none`, as a nil pointer is; Go's
`int` is `Int`, `quantity.Size` is `Nat`, `time.Duration` is `Int` nanoseconds. -/

namespace Snapd.Quota

structure ResourceCPU where
  count : Int
  percentage : Int
  deriving DecidableEq, Repr

structure ResourceJournalRate where
  count : Int
  period : Int
  deriving DecidableEq, Repr

/-- `ResourceJournal`: a journal namespace, with an optional size limit and rate. -/
structure ResourceJournal where
  size : Option Nat
  rate : Option ResourceJournalRate
  deriving DecidableEq, Repr

/-- `Resources`: each limit a request sets, `none` for the limits it leaves alone. The memory
limit, the cpu set and the thread limit stand for `ResourceMemory`, `ResourceCPUSet` and
`ResourceThreads`, structures of one field each. -/
structure Resources where
  memory : Option Nat
  cpu : Option ResourceCPU
  cpuSet : Option (List Int)
  threads : Option Int
  journal : Option ResourceJournal
  deriving DecidableEq, Repr

def sizeKiB : Nat := 2 ^ 10

def sizeGiB : Nat := 2 ^ 30

def memoryLimitMin : Nat := 640 * sizeKiB

def journalLimitMin : Nat := 64 * sizeKiB

def journalLimitMax : Nat := 4 * sizeGiB

/-- `time.Microsecond`, in nanoseconds. -/
def microsecond : Int := 1000

/-- The decimal digits of a number. -/
def natString (n : Nat) : String := String.ofList (Nat.toDigits 10 n)

/-- `%d` of an `int`. -/
def intString (n : Int) : String :=
  if n < 0 then "-" ++ natString n.natAbs else natString n.toNat

/-- `%v` of a `[]int`: the numbers between brackets, separated by blanks. -/
def intsString (l : List Int) : String := "[" ++ " ".intercalate (l.map intString) ++ "]"

/-- `a / b` rounded to the nearest integer, a tie to the even one, as `%.2f` rounds. -/
def roundHalfEven (a b : Nat) : Nat :=
  if 2 * (a % b) > b then a / b + 1
  else if 2 * (a % b) < b then a / b
  else if a / b % 2 = 0 then a / b else a / b + 1

/-- The IEC unit of a size and the power of `1024` it stands for: the largest unit up to
`PiB` in which the size is at least `1023.5`. -/
def iecUnit (sz : Nat) : Nat × String :=
  let units := ["KiB", "MiB", "GiB", "TiB", "PiB"]
  let rec pick : Nat → List String → String → Nat × String
    | k, [], unit => (k, unit)
    | k, u :: us, unit => if 2 * sz < 2047 * 1024 ^ k then (k, unit) else pick (k + 1) us u
  pick 0 units "B"

/-- `quantity.Size.IECString` for a size below `2^53`, where the `float64` it is read as is
exact: a whole number in its unit, or two decimals. -/
def iecString (sz : Nat) : String :=
  let (k, unit) := iecUnit sz
  if sz % 1024 ^ k = 0 then natString (sz / 1024 ^ k) ++ " " ++ unit
  else
    let v := roundHalfEven (100 * sz) (1024 ^ k)
    let cents := v % 100
    natString (v / 100) ++ "." ++ (if cents < 10 then "0" else "") ++ natString cents ++ " " ++
      unit

example : iecString memoryLimitMin = "640 KiB" := by decide
example : iecString journalLimitMax = "4 GiB" := by decide

def cpuFitsIntoCPUSet (count percentage : Int) (cpuSet : List Int) : Except String Unit :=
  if cpuSet.length > 0 ∧ count ≠ 0 then
    let maxCPUUsage := (cpuSet.length : Int) * 100
    let cpuUsage := count * percentage
    if cpuUsage > maxCPUUsage then
      .error ("cpu usage " ++ intString cpuUsage ++ "% is larger than the maximum allowed for " ++
        "provided set " ++ intsString cpuSet ++ " of " ++ intString maxCPUUsage ++ "%")
    else .ok ()
  else .ok ()

namespace Resources

/-- `Resources.Unset`: no limit is set. -/
def unset (qr : Resources) : Bool :=
  qr.memory.isNone && qr.cpu.isNone && qr.cpuSet.isNone && qr.threads.isNone &&
    qr.journal.isNone

def validateMemoryQuota (limit : Nat) : Except String Unit :=
  if limit = 0 then .error "memory quota must have a limit set" else .ok ()

def validateCPUQuota (qr : Resources) (cpu : ResourceCPU) : Except String Unit :=
  if cpu.count ≠ 0 ∧ cpu.percentage = 0 then
    .error "invalid cpu quota with count of >0 and percentage of 0"
  else if cpu.count = 0 ∧ cpu.percentage = 0 then .error "invalid cpu quota with a cpu quota of 0"
  else match qr.cpuSet with
    | some cpus => cpuFitsIntoCPUSet cpu.count cpu.percentage cpus
    | none => .ok ()

def validateCPUSetQuota (cpus : List Int) : Except String Unit :=
  if cpus = [] then .error "cpu-set quota must not be empty" else .ok ()

def validateThreadQuota (limit : Int) : Except String Unit :=
  if limit ≤ 0 then .error ("invalid thread quota with a thread count of " ++ intString limit)
  else .ok ()

def validateJournalQuota (journal : ResourceJournal) : Except String Unit := do
  if let some size := journal.size then
    if size = 0 then throw "journal size quota must have a limit set"
    if size > journalLimitMax then
      throw ("journal size quota must be smaller than " ++ iecString journalLimitMax)
  if let some rate := journal.rate then
    if rate.count < 0 then
      throw "journal quota must have a rate count equal to or larger than zero"
    if rate.period > 0 ∧ rate.period < microsecond then
      throw "journal quota must have a period of at least 1 microsecond (minimum resolution)"

def validate (qr : Resources) : Except String Unit := do
  if qr.unset then throw "quota group must have at least one resource limit set"
  if let some limit := qr.memory then validateMemoryQuota limit
  if let some cpu := qr.cpu then qr.validateCPUQuota cpu
  if let some cpus := qr.cpuSet then validateCPUSetQuota cpus
  if let some limit := qr.threads then validateThreadQuota limit
  if let some journal := qr.journal then validateJournalQuota journal

/-- `Resources.ValidateChange`: the memory and thread limits may not go down or be removed,
the cpu percentage may not be removed, the cpu set may not be emptied, and a cpu count has to
fit into the cpu set it is set with or the group has. -/
def validateChange (qr newLimits : Resources) : Except String Unit := do
  if let some limit := newLimits.memory then
    if qr.memory.isSome ∧ limit = 0 then throw "cannot remove memory limit from quota group"
    if limit ≤ memoryLimitMin then
      throw ("memory limit " ++ natString limit ++ " is too small: size must be larger than " ++
        iecString memoryLimitMin)
    if let some old := qr.memory then
      if limit < old then
        throw "cannot decrease memory limit, remove and re-create it to decrease the limit"
  if let (some old, some cpu) := (qr.cpu, newLimits.cpu) then
    if cpu.percentage = 0 ∧ old.percentage ≠ 0 then throw "cannot remove cpu limit from quota group"
    match newLimits.cpuSet, qr.cpuSet with
    | some cpus, _ => cpuFitsIntoCPUSet cpu.count cpu.percentage cpus
    | none, some cpus => cpuFitsIntoCPUSet cpu.count cpu.percentage cpus
    | none, none => pure ()
  if let (some _, some cpus) := (qr.cpuSet, newLimits.cpuSet) then
    if cpus = [] then throw "cannot remove all allowed cpus from quota group"
    if let (none, some old) := (newLimits.cpu, qr.cpu) then
      cpuFitsIntoCPUSet old.count old.percentage cpus
  if let (some old, some limit) := (qr.threads, newLimits.threads) then
    if limit = 0 then throw "cannot remove thread limit from quota group"
    if limit < old then
      throw "cannot decrease thread limit, remove and re-create it to decrease the limit"
  if let (some old, some journal) := (qr.journal, newLimits.journal) then
    if old.size.isSome ∧ journal.size = some 0 then
      throw "cannot remove journal size limit from quota group"
    if let some size := journal.size then
      if size < journalLimitMin then
        throw ("journal size limit " ++ natString size ++ " is too small: size must be larger than " ++
          iecString journalLimitMin)

end Resources

end Snapd.Quota
