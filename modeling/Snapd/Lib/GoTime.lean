import Mathlib.Data.Int.DivMod
import Mathlib.Tactic.Ring
import Mathlib.Tactic.LinearCombination

/-! Go's `time.Time` as the standard library computes it: an instant in nanoseconds since the
Unix epoch with its `Location`, a location being the offsets east of UTC in force from each
zone transition on. The calendar date of an instant is the proleptic Gregorian date of its
local day, which `time.Date` turns back into an instant by looking the offset up twice, as
`time.Date` does near a transition. Durations are nanoseconds. -/

namespace GoTime

/-- `time.Second`, in nanoseconds. -/
def second : Int := 1000000000

def minute : Int := 60 * second

def hour : Int := 60 * minute

/-- `24 * time.Hour`: the step of the day loops. -/
def oneDay : Int := 24 * hour

theorem oneDay_eq : oneDay = 86400 * second := by
  unfold oneDay hour minute
  ring

theorem oneDay_pos : 0 < oneDay := by
  unfold oneDay hour minute second
  decide

/-- A `time.Location`: its first offset (seconds east of UTC), and its transitions in time
order, each the Unix second from which an offset is in force. -/
structure Location where
  base : Int
  transitions : List (Int × Int)
  deriving DecidableEq, Repr

/-- `Location.lookup`: the offset in force at Unix second `u`. -/
def Location.offset (loc : Location) (u : Int) : Int :=
  loc.transitions.foldl (fun off tr => if tr.1 ≤ u then tr.2 else off) loc.base

/-- `time.FixedZone`: one offset at every instant. `time.UTC` is the offset `0`. -/
def Location.fixed (offset : Int) : Location := ⟨offset, []⟩

@[simp] theorem Location.offset_fixed (offset u : Int) : (Location.fixed offset).offset u = offset :=
  rfl

/-- A `time.Time`. -/
@[ext] structure Time where
  unixNano : Int
  loc : Location
  deriving DecidableEq, Repr

namespace Time

/-- The Unix second of the instant, as `Location.lookup` is given it. -/
def unix (t : Time) : Int := t.unixNano / second

/-- Nanoseconds since the epoch on the clock of the location. -/
def localNano (t : Time) : Int := t.unixNano + t.loc.offset t.unix * second

/-- The local day, counted from 1970-01-01. -/
def days (t : Time) : Int := t.localNano / oneDay

/-- `t.Clock()` with the nanoseconds: the time of day on the local clock. -/
def nanoOfDay (t : Time) : Int := t.localNano % oneDay

def add (t : Time) (d : Int) : Time := ⟨t.unixNano + d, t.loc⟩

def before (t u : Time) : Bool := decide (t.unixNano < u.unixNano)

def after (t u : Time) : Bool := decide (u.unixNano < t.unixNano)

def equal (t u : Time) : Bool := decide (t.unixNano = u.unixNano)

@[simp] theorem before_eq_true {t u : Time} : t.before u = true ↔ t.unixNano < u.unixNano :=
  decide_eq_true_iff

@[simp] theorem before_eq_false {t u : Time} : t.before u = false ↔ ¬ t.unixNano < u.unixNano :=
  decide_eq_false_iff_not

@[simp] theorem after_eq_true {t u : Time} : t.after u = true ↔ u.unixNano < t.unixNano :=
  decide_eq_true_iff

/-- `t.Weekday()`, Sunday being `0`: 1970-01-01 was a Thursday. -/
def weekday (t : Time) : Int := (t.days + 4) % 7

end Time

/-- The proleptic Gregorian date (year, month, day) of day `z` counted from 1970-01-01, by eras
of 400 years that start on the 1st of March. -/
def civilFromDays (z : Int) : Int × Int × Int :=
  let z := z + 719468
  let era := z / 146097
  let doe := z - era * 146097
  let yoe := (doe - doe / 1460 + doe / 36524 - doe / 146096) / 365
  let doy := doe - (365 * yoe + yoe / 4 - yoe / 100)
  let mp := (5 * doy + 2) / 153
  let d := doy - (153 * mp + 2) / 5 + 1
  let m := if mp < 10 then mp + 3 else mp - 9
  (yoe + era * 400 + (if m ≤ 2 then 1 else 0), m, d)

def Time.month (t : Time) : Int := (civilFromDays t.days).2.1

def Time.day (t : Time) : Int := (civilFromDays t.days).2.2

/-- `time.Date` on local day `days` at `nano` nanoseconds into it, out-of-range clocks
carried into the next days. The offset is looked up at the local second read as UTC, and
again at the instant that gives when that one was not in force there. -/
def date (loc : Location) (days nano : Int) : Time :=
  let unix := days * 86400 + nano / second
  let utc := unix - loc.offset unix
  ⟨(unix - loc.offset utc) * second + nano % second, loc⟩

/-- `t.AddDate(0, 0, n)`: the same clock time `n` local days later. -/
def Time.addDate (t : Time) (n : Int) : Time := date t.loc (t.days + n) t.nanoOfDay

/-- The zero `time.Time`: January 1 of year 1, UTC. -/
def zeroTime : Time := ⟨-62135596800 * second, Location.fixed 0⟩

/-- `t.IsZero()`: the instant of the zero time, in any location. -/
def Time.isZero (t : Time) : Bool := decide (t.unixNano = zeroTime.unixNano)

/-! ## A fixed offset

Where the offset never changes, a local day is `24 * time.Hour` long: adding that duration
moves an instant to the next day at the same clock time, and `time.Date` gives back the
local clock it was asked for. -/

section Fixed

variable {o : Int}

theorem Time.localNano_of_fixed {t : Time} (h : t.loc = .fixed o) :
    t.localNano = t.unixNano + o * second := by
  simp [Time.localNano, h]

theorem Time.add_loc (t : Time) (d : Int) : (t.add d).loc = t.loc := rfl

theorem Time.localNano_add {t : Time} (h : t.loc = .fixed o) (d : Int) :
    (t.add d).localNano = t.localNano + d := by
  rw [Time.localNano_of_fixed (by rw [Time.add_loc, h]), Time.localNano_of_fixed h]
  simp only [Time.add]
  ring

theorem localNano_date (days nano : Int) :
    (date (.fixed o) days nano).localNano = days * oneDay + nano := by
  have hsec : nano / second * second + nano % second = nano := by
    rw [Int.ediv_mul_add_emod]
  rw [Time.localNano_of_fixed rfl]
  simp only [date, Location.offset_fixed, oneDay_eq]
  linear_combination hsec

theorem unixNano_date (days nano : Int) :
    (date (.fixed o) days nano).unixNano = days * oneDay + nano - o * second := by
  have h := localNano_date (o := o) days nano
  rw [Time.localNano_of_fixed rfl] at h
  linear_combination h

theorem Time.add_days_eq_date {t : Time} (h : t.loc = .fixed o) (k : Int) :
    t.add (k * oneDay) = date t.loc (t.days + k) t.nanoOfDay := by
  have hsplit : t.days * oneDay + t.nanoOfDay = t.unixNano + o * second := by
    rw [← Time.localNano_of_fixed h]
    exact Int.ediv_mul_add_emod _ _
  have hloc := localNano_date (o := o) (t.days + k) t.nanoOfDay
  rw [Time.localNano_of_fixed rfl] at hloc
  rw [h]
  apply Time.ext
  · simp only [Time.add]
    linear_combination -hloc - hsplit
  · exact h

theorem Time.days_date {days nano : Int} (h0 : 0 ≤ nano) (h1 : nano < oneDay) :
    (date (.fixed o) days nano).days = days := by
  rw [Time.days, localNano_date, Int.add_comm, Int.add_mul_ediv_right _ _ oneDay_pos.ne',
    Int.ediv_eq_zero_of_lt h0 h1, Int.zero_add]

theorem Time.nanoOfDay_date {days nano : Int} (h0 : 0 ≤ nano) (h1 : nano < oneDay) :
    (date (.fixed o) days nano).nanoOfDay = nano := by
  rw [Time.nanoOfDay, localNano_date, Int.add_comm, Int.add_mul_emod_self_right,
    Int.emod_eq_of_lt h0 h1]

theorem Time.nanoOfDay_nonneg (t : Time) : 0 ≤ t.nanoOfDay :=
  Int.emod_nonneg _ oneDay_pos.ne'

theorem Time.nanoOfDay_lt (t : Time) : t.nanoOfDay < oneDay :=
  Int.emod_lt_of_pos _ oneDay_pos

theorem Time.localNano_eq (t : Time) : t.localNano = t.days * oneDay + t.nanoOfDay :=
  (Int.ediv_mul_add_emod _ _).symm

theorem Time.nanoOfDay_add_of_dvd {t : Time} (h : t.loc = .fixed o) {d : Int} (hd : oneDay ∣ d) :
    (t.add d).nanoOfDay = t.nanoOfDay := by
  obtain ⟨k, rfl⟩ := hd
  rw [Time.nanoOfDay, Time.localNano_add h, Int.add_mul_emod_self_left]
  rfl

section WithinDay

variable {t : Time} {δ : Int} (h : t.loc = .fixed o) (h0 : 0 ≤ t.nanoOfDay + δ)
  (h1 : t.nanoOfDay + δ < oneDay)
include h h0 h1

theorem Time.days_add_of_lt : (t.add δ).days = t.days := by
  have hsplit : (t.add δ).localNano = t.nanoOfDay + δ + t.days * oneDay := by
    rw [Time.localNano_add h, Time.localNano_eq]
    ring
  rw [Time.days, hsplit, Int.add_mul_ediv_right _ _ oneDay_pos.ne', Int.ediv_eq_zero_of_lt h0 h1,
    Int.zero_add]

theorem Time.nanoOfDay_add_of_lt : (t.add δ).nanoOfDay = t.nanoOfDay + δ := by
  have hsplit : (t.add δ).localNano = t.nanoOfDay + δ + t.days * oneDay := by
    rw [Time.localNano_add h, Time.localNano_eq]
    ring
  rw [Time.nanoOfDay, hsplit, Int.add_mul_emod_self_right, Int.emod_eq_of_lt h0 h1]

/-- `AddDate` gives the clock it starts from: moving the start within its day moves the result
by as much. -/
theorem Time.addDate_add_of_lt (n : Int) : (t.add δ).addDate n = (t.addDate n).add δ := by
  have hloc : (t.add δ).loc = .fixed o := by rw [Time.add_loc, h]
  apply Time.ext
  · have hright : ((t.addDate n).add δ).unixNano = (t.addDate n).unixNano + δ := rfl
    rw [hright, Time.addDate, Time.addDate, hloc, h, unixNano_date, unixNano_date,
      Time.days_add_of_lt h h0 h1, Time.nanoOfDay_add_of_lt h h0 h1]
    ring
  · rfl

end WithinDay

end Fixed

end GoTime
