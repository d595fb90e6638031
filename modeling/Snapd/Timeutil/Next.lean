import Snapd.Timeutil.Schedule

/-! What `Schedule.Next` returns, against the calendar definition of its window: the first day
from the date of `last` whose date matches a week span and that has a window ending no earlier
than `now` and not containing `last`, and that day's window with the earliest start. In a
location of one fixed offset the loop's steps of `24 * time.Hour` visit those days one by one
and `Next` returns that window. Where the offset changes, a step can skip a date. -/

namespace Snapd.Timeutil

open GoTime

/-- A window `Next` may return: it ends no earlier than `now` and does not contain `last`. -/
def qualifies (now last : Time) (w : ScheduleWindow) : Bool :=
  !w.stop.before now && !w.includes last

/-- The windows of the date of `t` that qualify. -/
def qualifyingWindows (tspans : List ClockSpan) (now last t : Time) : List ScheduleWindow :=
  (tspans.map (·.window t)).filter (qualifies now last)

theorem pickWindow_eq (now last : Time) (window newWindow : ScheduleWindow) :
    pickWindow now last window newWindow =
      if qualifies now last newWindow then
        (if window.isZero || newWindow.start.before window.start then newWindow else window)
      else window := by
  unfold pickWindow qualifies
  by_cases h1 : newWindow.stop.before now <;> by_cases h2 : newWindow.includes last <;> simp [h1, h2]

/-- The fold over a day's windows keeps the window it started with or a qualifying one; never
one starting later than a non-zero window it started with; and, once a window qualifies, a
non-zero window starting no later than it. -/
theorem foldl_pickWindow (now last : Time) (ws : List ScheduleWindow)
    (hnz : ∀ w ∈ ws, qualifies now last w = true → w.isZero = false) (acc : ScheduleWindow) :
    (ws.foldl (pickWindow now last) acc = acc ∨
      (ws.foldl (pickWindow now last) acc ∈ ws ∧
        qualifies now last (ws.foldl (pickWindow now last) acc) = true)) ∧
    (acc.isZero = false → (ws.foldl (pickWindow now last) acc).isZero = false ∧
      acc.start.before (ws.foldl (pickWindow now last) acc).start = false) ∧
    (∀ w ∈ ws, qualifies now last w = true →
      (ws.foldl (pickWindow now last) acc).isZero = false ∧
        w.start.before (ws.foldl (pickWindow now last) acc).start = false) := by
  induction ws generalizing acc with
  | nil => exact ⟨.inl rfl, fun h => ⟨h, by simp⟩, by simp⟩
  | cons w rest ih =>
    have hnz' : ∀ w ∈ rest, qualifies now last w = true → w.isZero = false :=
      fun w' hw' => hnz w' (List.mem_cons_of_mem _ hw')
    rw [List.foldl_cons, pickWindow_eq]
    by_cases hq : qualifies now last w = true
    · have hw : w.isZero = false := hnz w List.mem_cons_self hq
      by_cases hrep : (acc.isZero || w.start.before acc.start) = true
      · -- `w` replaces the window kept
        rw [if_pos hq, if_pos hrep]
        obtain ⟨h1, h2, h3⟩ := ih hnz' w
        obtain ⟨hr, hstart⟩ := h2 hw
        refine ⟨.inr ?_, fun hacc => ⟨hr, ?_⟩, fun w' hw' hq' => ?_⟩
        · rcases h1 with h | ⟨hmem, hq''⟩
          · rw [h]
            exact ⟨List.mem_cons_self, hq⟩
          · exact ⟨List.mem_cons_of_mem _ hmem, hq''⟩
        · simp only [hacc, Bool.false_or, Time.before_eq_true] at hrep
          simp only [Time.before_eq_false] at hstart ⊢
          omega
        · rcases List.mem_cons.mp hw' with rfl | hw'
          · exact ⟨hr, hstart⟩
          · exact h3 w' hw' hq'
      · -- the window kept stays: it is not zero and starts no later than `w`
        rw [if_pos hq, if_neg hrep]
        simp only [Bool.or_eq_true, not_or, Bool.not_eq_true] at hrep
        obtain ⟨h1, h2, h3⟩ := ih hnz' acc
        obtain ⟨hr, hstart⟩ := h2 hrep.1
        refine ⟨h1.imp_right fun h => ⟨List.mem_cons_of_mem _ h.1, h.2⟩, h2,
          fun w' hw' hq' => ?_⟩
        rcases List.mem_cons.mp hw' with rfl | hw'
        · refine ⟨hr, ?_⟩
          simp only [Time.before_eq_false] at hstart hrep ⊢
          omega
        · exact h3 w' hw' hq'
    · rw [if_neg hq]
      obtain ⟨h1, h2, h3⟩ := ih hnz' acc
      refine ⟨h1.imp_right fun h => ⟨List.mem_cons_of_mem _ h.1, h.2⟩, h2,
        fun w' hw' hq' => ?_⟩
      rcases List.mem_cons.mp hw' with rfl | hw'
      · exact absurd hq' hq
      · exact h3 w' hw' hq'

section Day

variable {tspans : List ClockSpan} {now last t : Time}

theorem zeroWindow_isZero : zeroWindow.isZero = true := by
  simp [zeroWindow, ScheduleWindow.isZero, Time.isZero]

theorem dayWindow_eq_zero (h : qualifyingWindows tspans now last t = []) :
    dayWindow tspans now last t = zeroWindow := by
  have hnone : ∀ w ∈ tspans.map (·.window t), qualifies now last w = false := by
    simpa [qualifyingWindows, List.filter_eq_nil_iff] using h
  have hnz : ∀ w ∈ tspans.map (·.window t), qualifies now last w = true → w.isZero = false :=
    fun w hw hq => by simp [hnone w hw] at hq
  rcases (foldl_pickWindow now last _ hnz zeroWindow).1 with h | ⟨hmem, hq⟩
  · exact h
  · simp [hnone _ hmem] at hq

/-- On a day with a qualifying window, none of them zero, the window kept is the first
qualifying window with the earliest start. -/
theorem dayWindow_mem (hnz : ∀ w ∈ qualifyingWindows tspans now last t, w.isZero = false)
    (h : qualifyingWindows tspans now last t ≠ []) :
    dayWindow tspans now last t ∈ qualifyingWindows tspans now last t ∧
      ∀ w ∈ qualifyingWindows tspans now last t,
        w.start.before (dayWindow tspans now last t).start = false := by
  have hnz' : ∀ w ∈ tspans.map (·.window t), qualifies now last w = true → w.isZero = false :=
    fun w hw hq => hnz w (List.mem_filter.mpr ⟨hw, hq⟩)
  obtain ⟨h1, -, h3⟩ := foldl_pickWindow now last _ hnz' zeroWindow
  obtain ⟨w, hw⟩ := List.exists_mem_of_ne_nil _ h
  obtain ⟨hwin, hq⟩ := List.mem_filter.mp hw
  refine ⟨?_, fun w' hw' => ?_⟩
  · rcases h1 with h0 | ⟨hmem, hq'⟩
    · -- the zero window is not what a qualifying window leaves
      have hr := (h3 w hwin hq).1
      rw [h0, zeroWindow_isZero] at hr
      cases hr
    · exact List.mem_filter.mpr ⟨hmem, hq'⟩
  · obtain ⟨hwin', hq'⟩ := List.mem_filter.mp hw'
    exact (h3 w' hwin' hq').2

end Day

/-- The instant the calendar definition looks at on local day `d`: `last`'s time of day. -/
def onDay (last : Time) (d : Int) : Time := date last.loc d last.nanoOfDay

/-- Day `d` is passed over: its date matches no week span, or it matches and has no qualifying
window. -/
def Schedule.PassesOver (sched : Schedule) (now last : Time) (d : Int) : Prop :=
  sched.dayMatches (onDay last d) = some false ∨
    (sched.dayMatches (onDay last d) = some true ∧
      qualifyingWindows sched.flattenedClockSpans now last (onDay last d) = [])

/-- The window the calendar definition prescribes from day `d₀` on: day `d` is the first from
`d₀` whose date matches and that has a qualifying window, and `w` is one of its qualifying
windows with the earliest start. -/
structure Prescribed (sched : Schedule) (now last : Time) (d₀ d : Int) (w : ScheduleWindow) :
    Prop where
  from_start : d₀ ≤ d
  day_matches : sched.dayMatches (onDay last d) = some true
  mem : w ∈ qualifyingWindows sched.flattenedClockSpans now last (onDay last d)
  earliest : ∀ w' ∈ qualifyingWindows sched.flattenedClockSpans now last (onDay last d),
    w'.start.before w.start = false
  first : ∀ d', d₀ ≤ d' → d' < d → sched.PassesOver now last d'

namespace Prescribed

variable {sched : Schedule} {now last : Time} {d₀ d : Int} {w : ScheduleWindow}

theorem of_passesOver (hpass : sched.PassesOver now last d₀)
    (h : Prescribed sched now last (d₀ + 1) d w) : Prescribed sched now last d₀ d w := by
  refine ⟨by have := h.from_start; omega, h.day_matches, h.mem, h.earliest, fun d' h1 h2 => ?_⟩
  rcases Int.lt_or_eq_of_le h1 with h1 | rfl
  · exact h.first d' (by omega) h2
  · exact hpass

theorem here_or_later (h : Prescribed sched now last d₀ d w) :
    d = d₀ ∨ (sched.PassesOver now last d₀ ∧ Prescribed sched now last (d₀ + 1) d w) := by
  rcases Int.lt_or_eq_of_le h.from_start with hlt | rfl
  · exact .inr ⟨h.first d₀ le_rfl hlt, ⟨by omega, h.day_matches, h.mem, h.earliest,
      fun d' h1 h2 => h.first d' (by omega) h2⟩⟩
  · exact .inl rfl

end Prescribed

/-! ## A fixed offset

In a location of one offset, the loop's instant `k` days on is the calendar's instant on the
`k`-th day from the date of `last`. -/

section Fixed

variable {sched : Schedule} {now last : Time} {o : Int}

theorem onDay_loc (last : Time) (d : Int) : (onDay last d).loc = last.loc := rfl

theorem days_onDay (hloc : last.loc = .fixed o) (d : Int) : (onDay last d).days = d := by
  rw [onDay, hloc]
  exact Time.days_date last.nanoOfDay_nonneg last.nanoOfDay_lt

theorem onDay_days (hloc : last.loc = .fixed o) : onDay last last.days = last := by
  have h := Time.add_days_eq_date hloc 0
  rw [Int.add_zero, Int.zero_mul] at h
  rw [onDay, ← h]
  simp [Time.add]

theorem onDay_add_oneDay (hloc : last.loc = .fixed o) (d : Int) :
    (onDay last d).add oneDay = onDay last (d + 1) := by
  have h := Time.add_days_eq_date (t := onDay last d) (by rw [onDay_loc, hloc]) 1
  rw [Int.one_mul, days_onDay hloc] at h
  rw [h, onDay_loc]
  unfold onDay
  rw [hloc, Time.nanoOfDay_date last.nanoOfDay_nonneg last.nanoOfDay_lt]

theorem days_add_oneDay_mul (hloc : last.loc = .fixed o) (k : Nat) :
    (last.add (k * oneDay)).days = last.days + k := by
  rw [Time.add_days_eq_date hloc, ← onDay, days_onDay hloc]

theorem window_start_unixNano (hloc : last.loc = .fixed o) (ts : ClockSpan) (d : Int) :
    (ts.window (onDay last d)).start.unixNano = d * oneDay + ts.start.duration - o * second := by
  simp only [ClockSpan.window, Clock.time, onDay_loc, days_onDay hloc, hloc]
  exact unixNano_date d ts.start.duration

end Fixed

/-- A clock `ParseClock` returns: `0:00` to `23:59`, or `24:00`. -/
def Clock.Valid (c : Clock) : Prop :=
  (0 ≤ c.hour ∧ c.hour ≤ 23 ∧ 0 ≤ c.minute ∧ c.minute ≤ 59) ∨ (c.hour = 24 ∧ c.minute = 0)

/-- Every clock of the schedule's clock spans is one `ParseClock` returns. -/
def Schedule.ClocksValid (sched : Schedule) : Prop :=
  ∀ ts ∈ sched.clockSpans, ts.start.Valid ∧ ts.stop.Valid

theorem Clock.duration_nonneg_of_valid {c : Clock} (h : c.Valid) : 0 ≤ c.duration := by
  have hh : 0 < GoTime.hour := by decide
  have hm : 0 < GoTime.minute := by decide
  unfold Clock.duration
  rcases h with ⟨h1, -, h3, -⟩ | ⟨h1, h2⟩
  · exact Int.add_nonneg (Int.mul_nonneg h1 hh.le) (Int.mul_nonneg h3 hm.le)
  · rw [h1, h2]
    decide

theorem Clock.duration_add_nonneg (c : Clock) {dur : Int} (h : 0 ≤ c.duration + dur) :
    0 ≤ (c.add dur).duration := by
  have hh : 0 < GoTime.hour := by decide
  have hm : 0 < GoTime.minute := by decide
  have h1 : 0 ≤ ((c.duration + dur).tdiv GoTime.hour).tmod 24 :=
    Int.tmod_nonneg _ (Int.tdiv_nonneg h hh.le)
  have h2 : 0 ≤ ((c.duration + dur).tdiv GoTime.minute).tmod 60 :=
    Int.tmod_nonneg _ (Int.tdiv_nonneg h hm.le)
  unfold Clock.add Clock.duration
  exact Int.add_nonneg (Int.mul_nonneg h1 hh.le) (Int.mul_nonneg h2 hm.le)

theorem ClockSpan.start_duration_nonneg {ts : ClockSpan} (h : 0 ≤ ts.start.duration) :
    ∀ ts' ∈ ts.clockSpans, 0 ≤ ts'.start.duration := by
  unfold ClockSpan.clockSpans
  split
  · simpa using h
  · simp only [List.mem_map, List.mem_range]
    rintro _ ⟨i, -, rfl⟩
    apply Clock.duration_add_nonneg
    have hstep : 0 ≤ (if ts.stop.sub ts.start < 0 then -ts.stop.sub ts.start
        else ts.stop.sub ts.start).tdiv ts.split := by
      apply Int.tdiv_nonneg _ (Int.natCast_nonneg _)
      split <;> omega
    have := Int.mul_nonneg (Int.natCast_nonneg i) hstep
    omega

theorem Schedule.start_duration_nonneg {sched : Schedule} (h : sched.ClocksValid) :
    ∀ ts ∈ sched.flattenedClockSpans, 0 ≤ ts.start.duration := by
  unfold Schedule.flattenedClockSpans
  simp only [List.mem_flatMap]
  rintro ts ⟨base, hbase, hts⟩
  split at hbase
  · simp only [List.mem_singleton] at hbase
    subst hbase
    exact ClockSpan.start_duration_nonneg (by decide) ts hts
  · exact ClockSpan.start_duration_nonneg
      (Clock.duration_nonneg_of_valid (h base hbase).1) ts hts

section Loop

variable {sched : Schedule} {now last : Time} {o : Int}

/-- From the date of `last` on, with `now` and `last` past the zero time, no qualifying window
is zero. -/
theorem qualifying_not_zero (hloc : last.loc = .fixed o) (hnow : zeroTime.before now = true)
    (hlast : zeroTime.unixNano + oneDay ≤ last.unixNano) (hclocks : sched.ClocksValid)
    {d : Int} (hd : last.days ≤ d) :
    ∀ w ∈ qualifyingWindows sched.flattenedClockSpans now last (onDay last d), w.isZero = false := by
  intro w hw
  obtain ⟨hwin, hq⟩ := List.mem_filter.mp hw
  obtain ⟨ts, hts, rfl⟩ := List.mem_map.mp hwin
  simp only [qualifies, Bool.and_eq_true, Bool.not_eq_true', Time.before_eq_false] at hq
  simp only [Time.before_eq_true] at hnow
  have hsplit : last.days * oneDay + last.nanoOfDay = last.unixNano + o * second := by
    rw [← Time.localNano_of_fixed hloc]
    exact Int.ediv_mul_add_emod _ _
  have hday : last.days * oneDay ≤ d * oneDay := Int.mul_le_mul_of_nonneg_right hd oneDay_pos.le
  have hstart := window_start_unixNano hloc ts d
  have hdur := Schedule.start_duration_nonneg hclocks ts hts
  have hnod := last.nanoOfDay_lt
  simp only [ScheduleWindow.isZero, Time.isZero, Bool.or_eq_false_iff, decide_eq_false_iff_not]
  omega

theorem nextLoop_passesOver (hloc : last.loc = .fixed o) (hnow : zeroTime.before now = true)
    {d : Int} (hpass : sched.PassesOver now last d) (fuel : Nat) :
    sched.nextLoop now last sched.flattenedClockSpans (fuel + 1) (onDay last d) =
      sched.nextLoop now last sched.flattenedClockSpans fuel (onDay last (d + 1)) := by
  rw [Schedule.nextLoop, ← onDay_add_oneDay hloc]
  rcases hpass with hm | ⟨hm, hq⟩
  · rw [hm]
  · -- no window qualifies: the zero window is kept, and it ends before `now`
    rw [hm]
    simp only [dayWindow_eq_zero hq, zeroWindow, hnow, if_true]

theorem nextLoop_found {d : Int}
    (hnz : ∀ w ∈ qualifyingWindows sched.flattenedClockSpans now last (onDay last d),
      w.isZero = false)
    (hm : sched.dayMatches (onDay last d) = some true)
    (hq : qualifyingWindows sched.flattenedClockSpans now last (onDay last d) ≠ []) (fuel : Nat) :
    sched.nextLoop now last sched.flattenedClockSpans (fuel + 1) (onDay last d) =
      some (dayWindow sched.flattenedClockSpans now last (onDay last d)) := by
  obtain ⟨hmem, -⟩ := dayWindow_mem hnz hq
  have hstop : (dayWindow sched.flattenedClockSpans now last (onDay last d)).stop.before now =
      false := by
    have hqual := (List.mem_filter.mp hmem).2
    simp only [qualifies, Bool.and_eq_true, Bool.not_eq_true'] at hqual
    exact hqual.1
  rw [Schedule.nextLoop, hm]
  simp only [hstop, Bool.false_eq_true, if_false]

variable (hloc : last.loc = .fixed o) (hnow : zeroTime.before now = true)
  (hlast : zeroTime.unixNano + oneDay ≤ last.unixNano) (hclocks : sched.ClocksValid)
include hloc hnow hlast hclocks

/-- What the loop returns from day `d₀` on is the window prescribed from `d₀`, on a day within
its fuel. -/
theorem nextLoop_prescribed (fuel : Nat) : ∀ (d₀ : Int) (w : ScheduleWindow), last.days ≤ d₀ →
    sched.nextLoop now last sched.flattenedClockSpans fuel (onDay last d₀) = some w →
    ∃ d, d < d₀ + fuel ∧ Prescribed sched now last d₀ d w := by
  induction fuel with
  | zero =>
    intro d₀ w _ h
    cases h
  | succ fuel ih =>
    intro d₀ w hd h
    have hnz := qualifying_not_zero hloc hnow hlast hclocks hd
    -- a day passed over: the window is prescribed from the next day on
    have hnext : sched.PassesOver now last d₀ → ∃ d, d < d₀ + ↑(fuel + 1) ∧
        Prescribed sched now last d₀ d w := by
      intro hpass
      rw [nextLoop_passesOver hloc hnow hpass] at h
      obtain ⟨d, hlt, hpre⟩ := ih (d₀ + 1) w (by omega) h
      exact ⟨d, by omega, hpre.of_passesOver hpass⟩
    cases hm : sched.dayMatches (onDay last d₀) with
    | none =>
      rw [Schedule.nextLoop, hm] at h
      cases h
    | some b =>
      cases b with
      | false => exact hnext (.inl hm)
      | true =>
        by_cases hq : qualifyingWindows sched.flattenedClockSpans now last (onDay last d₀) = []
        · exact hnext (.inr ⟨hm, hq⟩)
        · rw [nextLoop_found hnz hm hq] at h
          cases h
          obtain ⟨hmem, hearly⟩ := dayWindow_mem hnz hq
          exact ⟨d₀, by omega, le_rfl, hm, hmem, hearly, fun d' h1 h2 => absurd h2 (by omega)⟩

/-- The loop returns a window prescribed from `d₀` on the prescribed day, when that day is
within its fuel. -/
theorem nextLoop_of_prescribed (fuel : Nat) : ∀ (d₀ d : Int) (w : ScheduleWindow), last.days ≤ d₀ →
    Prescribed sched now last d₀ d w → d < d₀ + fuel →
    ∃ w', sched.nextLoop now last sched.flattenedClockSpans fuel (onDay last d₀) = some w' ∧
      Prescribed sched now last d₀ d w' := by
  induction fuel with
  | zero =>
    intro d₀ d w _ h hlt
    have := h.from_start
    omega
  | succ fuel ih =>
    intro d₀ d w hd h hlt
    rcases h.here_or_later with rfl | ⟨hpass, hlater⟩
    · have hnz := qualifying_not_zero hloc hnow hlast hclocks hd
      have hq := List.ne_nil_of_mem h.mem
      rw [nextLoop_found hnz h.day_matches hq]
      obtain ⟨hmem, hearly⟩ := dayWindow_mem hnz hq
      exact ⟨_, rfl, le_rfl, h.day_matches, hmem, hearly, h.first⟩
    · rw [nextLoop_passesOver hloc hnow hpass]
      obtain ⟨w', h', hpre⟩ := ih (d₀ + 1) d w (by omega) hlater (by omega)
      exact ⟨w', h', hpre.of_passesOver hpass⟩

end Loop

/-- In a location of one fixed offset, with `now` and `last` past the zero time and the clocks
of a parsed schedule: the loop of `Next` visits the date of `last` and the days after it, one
day a round; and it returns, within `fuel` days, exactly a window the calendar definition
prescribes, whenever the prescribed day lies within them. -/
theorem next_returns_prescribed_window (sched : Schedule) (now last : Time) (o : Int)
    (fuel : Nat) (hloc : last.loc = .fixed o) (hnow : zeroTime.before now = true)
    (hlast : zeroTime.unixNano + oneDay ≤ last.unixNano) (hclocks : sched.ClocksValid) :
    (∀ k : Nat, (last.add (k * oneDay)).days = last.days + k) ∧
    (∀ w, sched.next now last fuel = some w →
      ∃ d, d < last.days + fuel ∧ Prescribed sched now last last.days d w) ∧
    (∀ d w, Prescribed sched now last last.days d w → d < last.days + fuel →
      ∃ w', sched.next now last fuel = some w' ∧ Prescribed sched now last last.days d w') := by
  have hstart : sched.next now last fuel =
      sched.nextLoop now last sched.flattenedClockSpans fuel (onDay last last.days) := by
    rw [onDay_days hloc]
    rfl
  refine ⟨days_add_oneDay_mul hloc, fun w h => ?_, fun d w h hlt => ?_⟩
  · rw [hstart] at h
    exact nextLoop_prescribed hloc hnow hlast hclocks fuel _ w le_rfl h
  · rw [hstart]
    exact nextLoop_of_prescribed hloc hnow hlast hclocks fuel _ d w le_rfl h hlt

/-- `ParseSchedule("sun,10:00-11:00")`. -/
def sundayMorning : Schedule := ⟨[⟨⟨0, everyWeek⟩, ⟨0, everyWeek⟩⟩], [⟨⟨10, 0⟩, ⟨11, 0⟩, 0, false⟩]⟩

/-- Saturday 9 March 2024, 23:30 UTC. -/
def utcSaturday : Time := ⟨1710027000 * second, .fixed 0⟩

/-- Sunday 10 March 2024, 10:00 to 11:00 UTC. -/
def utcSundayWindow : ScheduleWindow :=
  ⟨⟨1710064800 * second, .fixed 0⟩, ⟨1710068400 * second, .fixed 0⟩, false⟩

theorem utcSunday_prescribed :
    ∃ d, d < utcSaturday.days + 8 ∧
      Prescribed sundayMorning utcSaturday utcSaturday utcSaturday.days d utcSundayWindow :=
  (next_returns_prescribed_window sundayMorning utcSaturday utcSaturday 0 8 rfl (by decide)
    (by decide) (by unfold Schedule.ClocksValid Clock.Valid; decide)).2.1 _ (by decide +kernel)

/-! ## A change of offset

In New York the night of 10 March 2024 is an hour short. From 23:30 on Saturday the step of
`24 * time.Hour` lands on Monday 00:30: the Sunday is never visited, and `Next` returns the
window a week later than the one the calendar definition prescribes. -/

/-- New York in 2024: five hours west of UTC, four from 10 March 02:00 to 3 November 02:00. -/
def newYork2024 : Location := ⟨-18000, [(1710054000, -14400), (1730613600, -18000)]⟩

/-- Saturday 9 March 2024, 23:30 in New York. -/
def lastSaturday : Time := ⟨1710045000 * second, newYork2024⟩

/-- Sunday 10 March 2024, 10:00 to 11:00 in New York. -/
def marchTenthWindow : ScheduleWindow :=
  ⟨⟨1710079200 * second, newYork2024⟩, ⟨1710082800 * second, newYork2024⟩, false⟩

/-- Sunday 17 March 2024, 10:00 to 11:00 in New York. -/
def marchSeventeenthWindow : ScheduleWindow :=
  ⟨⟨1710684000 * second, newYork2024⟩, ⟨1710687600 * second, newYork2024⟩, false⟩

theorem next_skips_spring_forward_sunday :
    (lastSaturday.add oneDay).days = lastSaturday.days + 2 ∧
    Prescribed sundayMorning lastSaturday lastSaturday lastSaturday.days (lastSaturday.days + 1)
      marchTenthWindow ∧
    sundayMorning.next lastSaturday lastSaturday 8 = some marchSeventeenthWindow ∧
    marchTenthWindow.start.before marchSeventeenthWindow.start = true := by
  refine ⟨by decide, ⟨by omega, by decide +kernel, by decide +kernel, by decide +kernel,
    fun d' h1 h2 => ?_⟩, by decide +kernel, by decide⟩
  -- the one day before the Sunday is the Saturday, which matches no week span
  obtain rfl : d' = lastSaturday.days := by omega
  exact .inl (by decide +kernel)

end Snapd.Timeutil
