import Snapd.Lib.GoTime

/-! `timeutil/schedule.go`: clock and week spans, the windows they give on a day, and
`Schedule.Next`, which walks from the last event in steps of `24 * time.Hour` to the first day
with a window. The loops of the week helpers run a bounded number of rounds: each of them
ends within 35 rounds in any month, and `none` stands for a loop still running after
`loopBound` rounds. -/

namespace Snapd.Timeutil

open GoTime

/-- `Clock`: an hour and minute of a day, `24:00` being the end of the day. -/
structure Clock where
  hour : Int
  minute : Int
  deriving DecidableEq, Repr

/-- The duration from midnight to the clock. -/
def Clock.duration (t : Clock) : Int := t.hour * GoTime.hour + t.minute * GoTime.minute

/-- `Clock.Sub`: `t - other`, negated after adding a day when negative. -/
def Clock.sub (t other : Clock) : Int :=
  let dur := t.duration - other.duration
  if dur < 0 then -(dur + 24 * GoTime.hour) else dur

/-- `Clock.Add`: the hours and minutes of the sum, truncated as `int(d.Hours())` and
`int(d.Minutes())` are, and reduced by Go's `%`, which keeps the sign of the dividend. -/
def Clock.add (t : Clock) (dur : Int) : Clock :=
  let t2 := t.duration + dur
  ⟨(t2.tdiv GoTime.hour).tmod 24, (t2.tdiv GoTime.minute).tmod 60⟩

/-- `Clock.Time`: the clock on the date of `base`, in its location. -/
def Clock.time (t : Clock) (base : Time) : Time := date base.loc base.days t.duration

def everyWeek : Nat := 0

def lastWeek : Nat := 5

/-- `Week`: a weekday (`time.Weekday`, Sunday being `0`) and its position in the month,
`everyWeek` for all of them. -/
structure Week where
  weekday : Int
  pos : Nat
  deriving DecidableEq, Repr

/-- `WeekSpan`: from one week day to another, a single day when both are equal. -/
structure WeekSpan where
  start : Week
  stop : Week
  deriving DecidableEq, Repr

/-- The rounds each loop of the week helpers is given. -/
def loopBound : Nat := 64

/-- A Go `for cond(n) { n = step(n) }` loop, for at most `fuel` rounds. -/
def loopWhile (cond : Time → Bool) (step : Time → Time) : Nat → Time → Option Time
  | 0, _ => none
  | fuel + 1, n => if cond n then loopWhile cond step fuel (step n) else some n

/-- The loop of `findNthWeekDay`, with `nth` the occurrences seen so far. -/
def findNthWeekDayLoop (weekday : Int) (nthInMonth : Nat) : Nat → Nat → Time → Option Time
  | 0, _, _ => none
  | fuel + 1, nth, t =>
    if t.weekday = weekday then
      if nth + 1 = nthInMonth then some t
      else findNthWeekDayLoop weekday nthInMonth fuel (nth + 1) (t.add oneDay)
    else findNthWeekDayLoop weekday nthInMonth fuel nth (t.add oneDay)

/-- `findNthWeekDay`: the `nthInMonth`-th `weekday` of the month of `t`. -/
def findNthWeekDay (t : Time) (weekday : Int) (nthInMonth : Nat) : Option Time :=
  findNthWeekDayLoop weekday nthInMonth loopBound 0 (t.addDate (-t.day + 1))

/-- `monthNext`: the first day of the month after that of `t`. -/
def monthNext (t : Time) : Option Time := do
  -- advance by 28 days at most, so that a 28-day February is not skipped
  let n ← loopWhile (fun n => n.month = t.month) (fun n => n.add oneDay) loopBound (t.addDate 28)
  if n.day ≠ 1 then some (n.addDate (-n.day + 1)) else some n

/-- `monthPrev`: a day of the month before that of `t`. -/
def monthPrev (t : Time) : Time := t.addDate (-1 * (t.day + 1))

/-- `findLastWeekDay`: the last `weekday` of the month of `t`. -/
def findLastWeekDay (t : Time) (weekday : Int) : Option Time := do
  let n ← monthNext t
  loopWhile (fun n => n.weekday ≠ weekday) (fun n => n.add (-oneDay)) loopBound (n.add (-oneDay))

/-- The loop of `matchingWeekdaysInMonth`, counting the weeks back to the start of `month`. -/
def matchingWeekdaysLoop (month : Int) : Nat → Nat → Time → Option Nat
  | 0, _, _ => none
  | fuel + 1, nth, n =>
    if n.month = month then matchingWeekdaysLoop month fuel (nth + 1) (n.add (-7 * oneDay))
    else some nth

/-- `matchingWeekdaysInMonth`: which occurrence of its weekday in the month `t` is. -/
def matchingWeekdaysInMonth (t : Time) : Option Nat := matchingWeekdaysLoop t.month loopBound 0 t

def isLastWeekdayInMonth (t : Time) : Bool := t.month ≠ (t.add (7 * oneDay)).month

def WeekSpan.anchoredAtStart (ws : WeekSpan) : Bool := ws.start.pos ≠ everyWeek

def WeekSpan.isSingleDay (ws : WeekSpan) : Bool := ws.start = ws.stop

/-- `WeekSpan.dateRangeAnchoredAt`: the dates the span covers, anchored in the month of `t`. -/
def WeekSpan.dateRangeAnchoredAt (ws : WeekSpan) (t : Time) : Option (Time × Time) := do
  let weekPos := if ws.anchoredAtStart then ws.start.pos else ws.stop.pos
  let (start, stop) ← if weekPos ≠ lastWeek then
      do pure (← findNthWeekDay t ws.start.weekday weekPos, ← findNthWeekDay t ws.stop.weekday weekPos)
    else
      do pure (← findLastWeekDay t ws.start.weekday, ← findLastWeekDay t ws.stop.weekday)
  -- eg. mon1-mon: the range runs on into the next week
  if start.after stop || (start.equal stop && !ws.isSingleDay) then
    if ws.anchoredAtStart then pure (start, stop.add (7 * oneDay))
    else pure (start.add (-7 * oneDay), stop)
  else pure (start, stop)

/-- The weekday test of `WeekSpan.Match`, wrapping around the end of the week. -/
def WeekSpan.weekdayMatch (ws : WeekSpan) (t : Time) : Bool :=
  if ws.start.weekday ≤ ws.stop.weekday then
    ws.start.weekday ≤ t.weekday && t.weekday ≤ ws.stop.weekday
  else ws.start.weekday ≤ t.weekday || t.weekday ≤ ws.stop.weekday

/-- `outside` in `WeekSpan.Match`: `t` is before the first or after the last day of a range. -/
def outsideRange (t : Time) (range : Time × Time) : Bool := t.before range.1 || t.after range.2

/-- `WeekSpan.Match`: whether the date of `t` lies in the span. A span anchored at a week of
the month is also tried in the month before (anchored at its start) or after (at its end),
for `t` in the first (last) week of its month only. -/
def WeekSpan.match (ws : WeekSpan) (t : Time) : Option Bool := do
  if ws.start.pos = everyWeek ∧ ws.stop.pos = everyWeek then pure (ws.weekdayMatch t)
  else
    let range ← ws.dateRangeAnchoredAt t
    if t.after range.2 || t.before range.1 then
      if ws.anchoredAtStart then
        if (← matchingWeekdaysInMonth t) ≠ 1 then pure false
        else pure !(outsideRange t (← ws.dateRangeAnchoredAt (monthPrev t)))
      else
        if !isLastWeekdayInMonth t then pure false
        else pure !(outsideRange t (← ws.dateRangeAnchoredAt (← monthNext t)))
    else pure !(outsideRange t range)

structure ScheduleWindow where
  start : Time
  stop : Time
  spread : Bool
  deriving DecidableEq, Repr

def ScheduleWindow.includes (s : ScheduleWindow) (t : Time) : Bool :=
  !(t.before s.start || t.after s.stop)

def ScheduleWindow.isZero (s : ScheduleWindow) : Bool := s.start.isZero || s.stop.isZero

/-- The zero `ScheduleWindow`. -/
def zeroWindow : ScheduleWindow := ⟨zeroTime, zeroTime, false⟩

/-- `ClockSpan`: a span of the day, possibly crossing midnight, split into `split` spans. -/
structure ClockSpan where
  start : Clock
  stop : Clock
  split : Nat
  spread : Bool
  deriving DecidableEq, Repr

/-- `ClockSpan.Window`: the span on the date of `t`, its end moved to the next day when it
comes before its start. -/
def ClockSpan.window (ts : ClockSpan) (t : Time) : ScheduleWindow :=
  let start := ts.start.time t
  let stop := ts.stop.time t
  let stop := if stop.before start then stop.add (24 * GoTime.hour) else stop
  ⟨start, stop, ts.spread⟩

/-- `ClockSpan.ClockSpans`: the span split into `split` equal spans. -/
def ClockSpan.clockSpans (ts : ClockSpan) : List ClockSpan :=
  if ts.split = 0 ∨ ts.split = 1 ∨ ts.stop = ts.start then [ts]
  else
    let span := ts.stop.sub ts.start
    let span := if span < 0 then -span else span
    let step := span.tdiv ts.split
    (List.range ts.split).map fun (i : Nat) =>
      let start := ts.start.add (i * step)
      ⟨start, start.add step, 0, ts.spread⟩

structure Schedule where
  weekSpans : List WeekSpan
  clockSpans : List ClockSpan
  deriving DecidableEq, Repr

/-- `Schedule.flattenedClockSpans`: the split clock spans, the whole day (`00:00-00:00`) when
there are none. -/
def Schedule.flattenedClockSpans (sched : Schedule) : List ClockSpan :=
  let baseTimes := if sched.clockSpans = [] then [⟨⟨0, 0⟩, ⟨0, 0⟩, 0, false⟩] else sched.clockSpans
  baseTimes.flatMap ClockSpan.clockSpans

/-- The loop over the week spans in `Next`, which stops at the first that matches. -/
def weekMatch : List WeekSpan → Time → Option Bool
  | [], _ => some false
  | ws :: rest, t => do if (← ws.match t) then pure true else weekMatch rest t

/-- Whether `Next` looks for a window on the date of `t`: there is no week span, or one
matches. -/
def Schedule.dayMatches (sched : Schedule) (t : Time) : Option Bool :=
  if sched.weekSpans = [] then some true else weekMatch sched.weekSpans t

/-- One round of the loop over the clock spans in `Next`: a window that ends before `now` or
contains `last` is passed over, and one that starts earlier than the window kept replaces it. -/
def pickWindow (now last : Time) (window newWindow : ScheduleWindow) : ScheduleWindow :=
  if newWindow.stop.before now then window
  else if newWindow.includes last then window
  else if window.isZero || newWindow.start.before window.start then newWindow
  else window

/-- The window `Next` keeps on the date of `t`, the zero window when there is none. -/
def dayWindow (tspans : List ClockSpan) (now last t : Time) : ScheduleWindow :=
  (tspans.map (·.window t)).foldl (pickWindow now last) zeroWindow

/-- The loop of `Schedule.Next`, from `t`, for at most `fuel` days. -/
def Schedule.nextLoop (sched : Schedule) (now last : Time) (tspans : List ClockSpan) :
    Nat → Time → Option ScheduleWindow
  | 0, _ => none
  | fuel + 1, t =>
    match sched.dayMatches t with
    | none => none
    | some false => sched.nextLoop now last tspans fuel (t.add oneDay)
    | some true =>
      let window := dayWindow tspans now last t
      if window.stop.before now then sched.nextLoop now last tspans fuel (t.add oneDay)
      else some window

/-- `Schedule.Next` at the time `now` that `timeNow` returns, for at most `fuel` days. -/
def Schedule.next (sched : Schedule) (now last : Time) (fuel : Nat) : Option ScheduleWindow :=
  sched.nextLoop now last sched.flattenedClockSpans fuel last

end Snapd.Timeutil
