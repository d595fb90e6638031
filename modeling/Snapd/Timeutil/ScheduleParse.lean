import Snapd.Timeutil.Schedule
import Snapd.Lib.GoText

/-! The schedule syntax of `timeutil/schedule.go`: the `String` methods of clocks, week days,
week spans, clock spans and schedules, and the parsers `ParseClock`, `parseWeekday`,
`parseWeekSpan`, `parseCount`, `parseClockSpan`, `parseEventSet` and `ParseSchedule`.

The pattern `validTime` is read by `findValidTime`, which gives the submatches of the
pattern for the strings it accepts. Each `%q` of an error is `GoText.quote`. -/

namespace Snapd.Timeutil

open GoText

def spanToken : Char := '-'

def spreadToken : Char := '~'

def countToken : Char := '/'

/-- `Clock.String`: `%02d:%02d`. -/
def Clock.string (t : Clock) : List Char := sprintf02d t.hour ++ ':' :: sprintf02d t.minute

/-- `longDayNames` of package `time`. -/
def longDayNames : List (List Char) :=
  ["Sunday".toList, "Monday".toList, "Tuesday".toList, "Wednesday".toList, "Thursday".toList,
    "Friday".toList, "Saturday".toList]

/-- `time.Weekday.String`, the number of a day out of range written as a `uint64`. -/
def weekdayString (d : Int) : List Char :=
  if 0 ≤ d ∧ d ≤ 6 then longDayNames.getD d.toNat []
  else "%!Weekday(".toList ++ itoa (d % 2 ^ 64).toNat ++ [')']

/-- `Week.String`: the first three letters of the day in lower case, then the week number. -/
def Week.string (w : Week) : List Char :=
  let day := ((weekdayString w.weekday).take 3).map Char.toLower
  if w.pos = everyWeek then day else day ++ itoa w.pos

def WeekSpan.string (ws : WeekSpan) : List Char :=
  if ws.stop ≠ ws.start then ws.start.string ++ '-' :: ws.stop.string else ws.start.string

/-- `ClockSpan.String`: a span of no length is written as its start alone. -/
def ClockSpan.string (ts : ClockSpan) : List Char :=
  let sep := if ts.spread then '~' else '-'
  if ts.stop ≠ ts.start then
    ts.start.string ++ sep :: ts.stop.string ++
      (if ts.split > 0 then '/' :: itoa ts.split else [])
  else ts.start.string

/-- `Schedule.String`: the week spans, then the clock spans, all separated by commas. -/
def Schedule.string (sched : Schedule) : List Char :=
  [','].intercalate (sched.weekSpans.map WeekSpan.string) ++
    (if sched.weekSpans ≠ [] ∧ sched.clockSpans ≠ [] then [','] else []) ++
    [','].intercalate (sched.clockSpans.map ClockSpan.string)

/-- The first digit of an hour `0[0-9]|1[0-9]|2[0-3]` of two digits, with its second. -/
def hourDigits (h1 h2 : Char) : Bool :=
  ((h1 = '0' || h1 = '1') && h2.isDigit) || (h1 = '2' && '0' ≤ h2 && h2 ≤ '3')

/-- The minutes `[0-5][0-9]`. -/
def minuteDigits (m1 m2 : Char) : Bool := '0' ≤ m1 && m1 ≤ '5' && m2.isDigit

/-- `validTime.FindStringSubmatch(s)` for the pattern
`^([0-9]|0[0-9]|1[0-9]|2[0-3]):([0-5][0-9])$|^24:00$`: the match and its two groups, which
are empty when `24:00` matched. -/
def findValidTime (s : List Char) : Option (List Char × List Char × List Char) :=
  if s = "24:00".toList then some (s, [], [])
  else match s with
    | [h, ':', m1, m2] => if h.isDigit && minuteDigits m1 m2 then some (s, [h], [m1, m2]) else none
    | [h1, h2, ':', m1, m2] =>
      if hourDigits h1 h2 && minuteDigits m1 m2 then some (s, [h1, h2], [m1, m2]) else none
    | _ => none

/-- `strconv.Atoi` on the digits of a group of `validTime`, with its error for anything else. -/
def atoi (s : List Char) : Except String Int :=
  match readDecimal s with
  | some v => .ok v
  | none => .error ("strconv.Atoi: parsing " ++ quote s ++ ": invalid syntax")

def parseClock (s : List Char) : Except String Clock :=
  match findValidTime s with
  | none => .error ("cannot parse " ++ quote s)
  | some (m0, m1, m2) =>
    if m0 = "24:00".toList then .ok ⟨24, 0⟩
    else do
      let hour ← (atoi m1).mapError fun err => "cannot parse " ++ quote m1 ++ ": " ++ err
      let minute ← (atoi m2).mapError fun err => "cannot parse " ++ quote m2 ++ ": " ++ err
      pure ⟨hour, minute⟩

/-- `parseClockRange`: two clocks around the first `-`. -/
def parseClockRange (s : List Char) : Except String (Clock × Clock) :=
  match splitN '-' s 2 with
  | [l0, l1] => do
    let start ← (parseClock l0).mapError fun _ => "cannot parse " ++ quote l0 ++ ": not a valid time"
    let stop ← (parseClock l1).mapError fun _ => "cannot parse " ++ quote l1 ++ ": not a valid time"
    pure (start, stop)
  | _ => .error ("cannot parse " ++ quote s ++ ": not a valid interval")

def weekdayMap : List (List Char × Int) :=
  [("sun".toList, 0), ("mon".toList, 1), ("tue".toList, 2), ("wed".toList, 3),
    ("thu".toList, 4), ("fri".toList, 5), ("sat".toList, 6)]

/-- The day of `parseWeekday` and its week number, read from a fourth character. -/
def weekdayParts (s : List Char) : Except String (List Char × Nat) :=
  if s.length = 4 then
    match parseUint (s.drop 3) 32 with
    | some v =>
      if v < 1 ∨ v > 5 then .error ("cannot parse " ++ quote s ++ ": invalid week number")
      else .ok (s.take 3, v)
    | none => .error ("cannot parse " ++ quote s ++ ": invalid week number")
  else .ok (s, 0)

/-- `parseWeekday`: a day, and a week number from 1 to 5 after it. -/
def parseWeekday (s : List Char) : Except String Week :=
  if s.length ≠ 3 ∧ s.length ≠ 4 then .error ("cannot parse " ++ quote s ++ ": invalid format")
  else do
    let (day, pos) ← weekdayParts s
    match weekdayMap.lookup day with
    | some weekday => pure ⟨weekday, pos⟩
    | none => .error ("cannot parse " ++ quote s ++ ": invalid weekday")

/-- The check `parseWeekSpan` ends with: a span with a week number at both ends must not end
before it starts, and one over several days keeps the number of its start only. -/
def anchorWeekSpan (s : List Char) (parsed : WeekSpan) : Except String WeekSpan :=
  if parsed.start.pos ≠ everyWeek ∧ parsed.stop.pos ≠ everyWeek then
    if parsed.stop.pos < parsed.start.pos then
      .error ("cannot parse " ++ quote s ++ ": unsupported schedule")
    else if !parsed.isSingleDay then .ok { parsed with stop := { parsed.stop with pos := everyWeek } }
    else .ok parsed
  else .ok parsed

def parseWeekSpan (s : List Char) : Except String WeekSpan :=
  let split := s.splitOn spanToken
  if split.length > 2 then .error ("cannot parse " ++ quote s ++ ": invalid week span")
  else do
    let notWeekday := fun (part : List Char) =>
      "cannot parse " ++ quote s ++ ": " ++ quote part ++ " is not a valid weekday"
    let start ← (parseWeekday (split.getD 0 [])).mapError fun _ => notWeekday (split.getD 0 [])
    let stop ← (if split.length = 2 then
        (parseWeekday (split.getD 1 [])).mapError fun _ => notWeekday (split.getD 1 [])
      else pure start)
    anchorWeekSpan s ⟨start, stop⟩

/-- `parseCount`: the count after a `/`, and the rest before it. -/
def parseCount (s : List Char) : Except String (Nat × List Char) :=
  if countToken ∉ s then .ok (0, s)
  else match s.splitOn countToken with
    | [rest, countStr] =>
      match parseUint countStr 32 with
      | some c =>
        if c = 0 then .error ("cannot parse " ++ quote s ++ ": invalid event interval")
        else .ok (c, rest)
      | none => .error ("cannot parse " ++ quote s ++ ": invalid event interval")
    | _ => .error ("cannot parse " ++ quote s ++ ": invalid event count")

/-- The clocks of `parseClockSpan` once the count and the spread are read: `-` alone is the
whole day. -/
def clockSpanBounds (rest : List Char) : Except String (Clock × Clock) :=
  if rest = [spanToken] then .ok (⟨0, 0⟩, ⟨24, 0⟩)
  else if spanToken ∈ rest then parseClockRange rest
  else (parseClock rest).map fun start => (start, start)

def parseClockSpan (s : List Char) : Except String ClockSpan :=
  match parseCount s with
  | .error _ => .error ("cannot parse " ++ quote s ++ ": not a valid interval")
  | .ok (split, rest) =>
    let spread : Bool := spreadToken ∈ rest
    let rest := if spread then rest.replace spreadToken spanToken else rest
    match clockSpanBounds rest with
    | .error _ => .error ("cannot parse " ++ quote s ++ ": not a valid time")
    | .ok (start, stop) => .ok ⟨start, stop, split, spread⟩

/-- One fragment of `parseEventSet`, with the schedule read so far and `expectTime`: a
fragment with a `:` is a clock span, after which only clock spans may follow. -/
def eventSetStep (s : List Char) (acc : Schedule × Bool) (fragment : List Char) :
    Except String (Schedule × Bool) :=
  if fragment = [] then .error ("cannot parse " ++ quote s ++ ": not a valid fragment")
  else if ':' ∈ fragment then do
    let span ← parseClockSpan fragment
    pure ({ acc.1 with clockSpans := acc.1.clockSpans ++ [span] }, true)
  else if !acc.2 then do
    let span ← parseWeekSpan fragment
    pure ({ acc.1 with weekSpans := acc.1.weekSpans ++ [span] }, acc.2)
  else .error ("cannot parse " ++ quote fragment ++ ": invalid schedule fragment")

def parseEventSet (s : List Char) : Except String Schedule := do
  let els := s.splitOn ','
  let fragments := if els.length > 1 then els else [s]
  let (schedule, _) ← fragments.foldlM (eventSetStep s) (⟨[], []⟩, false)
  pure schedule

/-- `ParseSchedule`: event sets separated by `,,`. -/
def parseSchedule (scheduleSpec : List Char) : Except String (List Schedule) :=
  (splitSep ",,".toList scheduleSpec).mapM parseEventSet

end Snapd.Timeutil
