import Snapd.Timeutil.ScheduleRoundTrip

/-! The sub-spans `ClockSpan.ClockSpans` splits a clock span into. A span of `L` minutes split
`k` ways has the step `⌊L · time.Minute / k⌋`; its `i`-th sub-span starts at the whole minutes
of `i` steps and lasts the whole minutes of one step, `⌊L / k⌋`, as `Clock.Add` keeps whole
minutes only. The sub-spans tile the span exactly when `k` divides `L`; otherwise the last of
them ends before the span does. -/

namespace Snapd.Timeutil

open GoTime

/-- The clock in minutes from midnight. -/
def Clock.minutes (c : Clock) : Int := c.hour * 60 + c.minute

/-- The time of day a clock shows, in minutes: `24:00` is midnight. -/
def Clock.timeOfDay (c : Clock) : Int := c.minutes % 1440

/-- The clock at minute `m` of a day. -/
def Clock.ofMinutes (m : Int) : Clock := ⟨m / 60 % 24, m % 60⟩

/-- The length of a clock span in minutes, forward from its start to its end. -/
def ClockSpan.length (ts : ClockSpan) : Int :=
  if ts.start.minutes ≤ ts.stop.minutes then ts.stop.minutes - ts.start.minutes
  else ts.stop.minutes - ts.start.minutes + 1440

/-- The `step` of `ClockSpans`: the span's duration divided by its count. -/
def ClockSpan.step (ts : ClockSpan) : Int := ts.length * minute / ts.split

/-- `spans` tile the span from `start` to `stop`: the first begins at `start`, each begins where
the one before ends, and the last ends at `stop`, read as times of day. -/
def Tiles (spans : List ClockSpan) (start stop : Clock) : Prop :=
  ∃ first last, spans.head? = some first ∧ spans.getLast? = some last ∧
    first.start.timeOfDay = start.timeOfDay ∧ last.stop.timeOfDay = stop.timeOfDay ∧
    ∀ i (h : i + 1 < spans.length), spans[i].stop = spans[i + 1].start

theorem minute_pos : 0 < minute := by decide

theorem duration_eq_minutes (c : Clock) : c.duration = c.minutes * minute := by
  unfold Clock.duration Clock.minutes GoTime.hour
  ring

theorem minutes_of_valid {c : Clock} (hc : c.Valid) : 0 ≤ c.minutes ∧ c.minutes ≤ 1440 := by
  unfold Clock.minutes
  rcases hc with ⟨hh0, hh, hm0, hm⟩ | ⟨h24, h0⟩ <;> omega

/-- `Clock.Add` of a duration that does not take the clock before midnight: the clock at the
whole minutes of the sum. -/
theorem add_eq_ofMinutes {c : Clock} {d : Int} (h : 0 ≤ c.duration + d) :
    c.add d = Clock.ofMinutes ((c.duration + d) / minute) := by
  have hdiv : 0 ≤ (c.duration + d) / minute := Int.ediv_nonneg h (le_of_lt minute_pos)
  have hhour : (c.duration + d) / GoTime.hour = (c.duration + d) / minute / 60 := by
    rw [Int.ediv_ediv_of_nonneg (le_of_lt minute_pos)]
    rfl
  unfold Clock.add Clock.ofMinutes
  dsimp only
  rw [Int.tdiv_eq_ediv_of_nonneg h, Int.tdiv_eq_ediv_of_nonneg h, hhour,
    Int.tmod_eq_emod_of_nonneg (Int.ediv_nonneg hdiv (by decide)), Int.tmod_eq_emod_of_nonneg hdiv]

theorem minutes_ofMinutes (m : Int) : (Clock.ofMinutes m).minutes = m % 1440 := by
  unfold Clock.ofMinutes Clock.minutes
  dsimp only
  omega

theorem timeOfDay_ofMinutes (m : Int) : (Clock.ofMinutes m).timeOfDay = m % 1440 := by
  unfold Clock.timeOfDay
  rw [minutes_ofMinutes]
  omega

theorem ofMinutes_emod_add (m n : Int) :
    Clock.ofMinutes (m % 1440 + n) = Clock.ofMinutes (m + n) := by
  unfold Clock.ofMinutes
  simp only [Clock.mk.injEq]
  omega

theorem length_nonneg {ts : ClockSpan} (hts : ts.Valid) : 0 ≤ ts.length := by
  have hs := minutes_of_valid hts.start
  have he := minutes_of_valid hts.stop
  unfold ClockSpan.length
  split <;> omega

theorem length_le {ts : ClockSpan} (hts : ts.Valid) : ts.length ≤ 1440 := by
  have hs := minutes_of_valid hts.start
  have he := minutes_of_valid hts.stop
  unfold ClockSpan.length
  split <;> omega

/-- The duration `ClockSpans` splits: `Clock.Sub` negates a span across midnight and
`ClockSpans` negates it back, which gives its length forward from the start. -/
theorem span_eq_length {ts : ClockSpan} (hts : ts.Valid) :
    (if ts.stop.sub ts.start < 0 then -ts.stop.sub ts.start else ts.stop.sub ts.start) =
      ts.length * minute := by
  have hs := minutes_of_valid hts.start
  have he := minutes_of_valid hts.stop
  unfold Clock.sub ClockSpan.length
  simp only [duration_eq_minutes]
  unfold GoTime.hour GoTime.minute GoTime.second
  split_ifs <;> omega

theorem step_nonneg {ts : ClockSpan} (hts : ts.Valid) : 0 ≤ ts.step :=
  Int.ediv_nonneg (Int.mul_nonneg (length_nonneg hts) (le_of_lt minute_pos)) (Int.natCast_nonneg _)

theorem step_div_minute (ts : ClockSpan) :
    ts.step / minute = ts.length / ts.split := by
  unfold ClockSpan.step
  rw [Int.ediv_ediv_of_nonneg (Int.natCast_nonneg _), Int.mul_comm ts.length minute,
    Int.mul_comm (ts.split : Int) minute, Int.mul_ediv_mul_of_pos _ _ minute_pos]

theorem add_eq_ofMinutes_add {c : Clock} {d : Int} (hc : 0 ≤ c.minutes) (hd : 0 ≤ d) :
    c.add d = Clock.ofMinutes (c.minutes + d / minute) := by
  have h : 0 ≤ c.duration + d := by
    rw [duration_eq_minutes]
    exact Int.add_nonneg (Int.mul_nonneg hc (le_of_lt minute_pos)) hd
  rw [add_eq_ofMinutes h, duration_eq_minutes, Int.add_comm,
    Int.add_mul_ediv_right _ _ (ne_of_gt minute_pos), Int.add_comm]

/-- `ClockSpans` of a span split `k > 1` ways: the `i`-th sub-span starts at the whole minutes
of `i` steps from the start, and lasts `⌊L / k⌋` minutes. -/
theorem clockSpans_eq {ts : ClockSpan} (hts : ts.Valid) (hk : 1 < ts.split)
    (hne : ts.stop ≠ ts.start) :
    ts.clockSpans = (List.range ts.split).map fun i =>
      ⟨Clock.ofMinutes (ts.start.minutes + i * ts.step / minute),
        Clock.ofMinutes (ts.start.minutes + i * ts.step / minute + ts.length / ts.split),
        0, ts.spread⟩ := by
  have hS := (minutes_of_valid hts.start).1
  have hsplit : ¬(ts.split = 0 ∨ ts.split = 1 ∨ ts.stop = ts.start) := by
    simp only [not_or]
    exact ⟨by omega, by omega, hne⟩
  unfold ClockSpan.clockSpans
  rw [if_neg hsplit]
  dsimp only
  rw [span_eq_length hts, Int.tdiv_eq_ediv_of_nonneg
    (Int.mul_nonneg (length_nonneg hts) (le_of_lt minute_pos)),
    show ts.length * minute / ts.split = ts.step from rfl]
  apply List.map_congr_left
  intro i _
  -- the start of the sub-span: `i` steps from the start, in whole minutes
  have hstart : ts.start.add (i * ts.step) =
      Clock.ofMinutes (ts.start.minutes + i * ts.step / minute) :=
    add_eq_ofMinutes_add hS (Int.mul_nonneg (Int.natCast_nonneg _) (step_nonneg hts))
  -- its end: one step further, from the clock the start shows
  have hstop : (Clock.ofMinutes (ts.start.minutes + i * ts.step / minute)).add ts.step =
      Clock.ofMinutes (ts.start.minutes + i * ts.step / minute + ts.length / ts.split) := by
    have hm := minutes_ofMinutes (ts.start.minutes + i * ts.step / minute)
    have hmod : 0 ≤ (Clock.ofMinutes (ts.start.minutes + i * ts.step / minute)).minutes := by
      rw [hm]
      exact Int.emod_nonneg _ (by decide)
    rw [add_eq_ofMinutes_add hmod (step_nonneg hts), hm, step_div_minute ts, ofMinutes_emod_add]
  rw [hstart, hstop]

theorem clockSpans_length {ts : ClockSpan} (hts : ts.Valid) (hk : 1 < ts.split)
    (hne : ts.stop ≠ ts.start) : ts.clockSpans.length = ts.split := by
  rw [clockSpans_eq hts hk hne, List.length_map, List.length_range]

theorem length_ofMinutes (a d : Int) (hd0 : 0 ≤ d) (hd : d < 1440) (split : Nat) (spread : Bool) :
    (⟨Clock.ofMinutes a, Clock.ofMinutes (a + d), split, spread⟩ : ClockSpan).length = d := by
  unfold ClockSpan.length
  simp only [minutes_ofMinutes]
  split <;> omega

theorem length_of_mem_clockSpans {ts : ClockSpan} (hts : ts.Valid) (hk : 1 < ts.split)
    (hne : ts.stop ≠ ts.start) : ∀ sub ∈ ts.clockSpans, sub.length = ts.length / ts.split := by
  have hL0 := length_nonneg hts
  have hL := length_le hts
  have hq0 : 0 ≤ ts.length / ts.split := Int.ediv_nonneg hL0 (Int.natCast_nonneg _)
  have hq : ts.length / ts.split < 1440 := Int.ediv_lt_of_lt_mul (by omega) (by omega)
  rw [clockSpans_eq hts hk hne]
  intro sub hsub
  obtain ⟨i, -, rfl⟩ := List.mem_map.mp hsub
  exact length_ofMinutes _ _ hq0 hq _ _

theorem stop_timeOfDay (ts : ClockSpan) :
    ts.stop.timeOfDay = (ts.start.minutes + ts.length) % 1440 := by
  unfold Clock.timeOfDay ClockSpan.length
  split <;> omega

/-- The step of a span of `L = q · k + r` minutes split `k` ways: `q` minutes and the part
`⌊r · time.Minute / k⌋` of a minute. -/
theorem step_eq (ts : ClockSpan) (hk : 0 < ts.split) :
    ts.step = ts.length / ts.split * minute + ts.length % ts.split * minute / ts.split := by
  have hk' : (ts.split : Int) ≠ 0 := by omega
  unfold ClockSpan.step
  conv_lhs => rw [← Int.emod_add_mul_ediv ts.length ts.split]
  rw [Int.add_mul, Int.mul_assoc, Int.add_mul_ediv_left _ _ hk', Int.add_comm]

theorem mul_step_of_dvd {ts : ClockSpan} (hk : 0 < ts.split) (hdvd : (ts.split : Int) ∣ ts.length)
    (i : Int) : i * ts.step / minute = i * (ts.length / ts.split) := by
  rw [step_eq ts hk, Int.emod_eq_zero_of_dvd hdvd, Int.zero_mul, Int.zero_ediv, Int.add_zero,
    ← Int.mul_assoc, Int.mul_ediv_cancel _ (ne_of_gt minute_pos)]

/-- When the count does not divide the length, the last sub-span ends before the span does:
each step falls short of `L / k` minutes by less than a minute, and the whole minutes of
`k - 1` steps lose the rest `r` of the division. -/
theorem lastStop_lt_length {ts : ClockSpan} (hts : ts.Valid) (hk : 1 < ts.split)
    (hnd : ¬(ts.split : Int) ∣ ts.length) :
    ((ts.split : Int) - 1) * ts.step / minute + ts.length / ts.split < ts.length := by
  have hk0 : (0 : Int) < ts.split := by omega
  have hL0 := length_nonneg hts
  have hdiv := Int.emod_add_mul_ediv ts.length ts.split
  have hr0 : 0 < ts.length % ts.split := (Int.emod_pos_of_not_dvd hnd).resolve_left (by omega)
  have hrk : ts.length % ts.split < ts.split := Int.emod_lt_of_pos _ hk0
  have ht0 : 0 ≤ ts.length % ts.split * minute / ts.split :=
    Int.ediv_nonneg (Int.mul_nonneg (le_of_lt hr0) (le_of_lt minute_pos)) (le_of_lt hk0)
  have hkt := Int.mul_ediv_self_le (x := ts.length % ts.split * minute) (ne_of_gt hk0)
  have hrest : ((ts.split : Int) - 1) * (ts.length % ts.split * minute / ts.split) <
      ts.length % ts.split * minute := by
    rcases lt_or_eq_of_le ht0 with ht | ht
    · have hsub : ((ts.split : Int) - 1) * (ts.length % ts.split * minute / ts.split) =
          ts.split * (ts.length % ts.split * minute / ts.split) -
            ts.length % ts.split * minute / ts.split := by ring
      omega
    · rw [← ht, Int.mul_zero]
      exact Int.mul_pos hr0 minute_pos
  have hwhole : ((ts.split : Int) - 1) * (ts.length % ts.split * minute / ts.split) / minute <
      ts.length % ts.split := Int.ediv_lt_of_lt_mul minute_pos hrest
  have hsteps : ((ts.split : Int) - 1) * ts.step / minute =
      ((ts.split : Int) - 1) * (ts.length / ts.split) +
        ((ts.split : Int) - 1) * (ts.length % ts.split * minute / ts.split) / minute := by
    rw [step_eq ts (by omega), Int.mul_add, ← Int.mul_assoc, Int.add_comm,
      Int.add_mul_ediv_right _ _ (ne_of_gt minute_pos), Int.add_comm]
  have hq : ((ts.split : Int) - 1) * (ts.length / ts.split) =
      ts.split * (ts.length / ts.split) - ts.length / ts.split := by ring
  omega

/-- A whole day split `k` ways ends after midnight unless `k` divides it: `k < 2^32` steps of
at least `20 µs` each add up to more than a minute. -/
theorem lastStop_pos_of_day {ts : ClockSpan} (hts : ts.Valid) (hk : 1 < ts.split)
    (hday : ts.length = 1440) :
    0 < ((ts.split : Int) - 1) * ts.step / minute + ts.length / ts.split := by
  have hk0 : (0 : Int) < ts.split := by omega
  have hklt : (ts.split : Int) < 2 ^ 32 := by exact_mod_cast hts.split_lt
  have hstep0 := step_nonneg hts
  have hsteps0 : 0 ≤ ((ts.split : Int) - 1) * ts.step / minute :=
    Int.ediv_nonneg (Int.mul_nonneg (by omega) hstep0) (le_of_lt minute_pos)
  rcases Int.lt_or_le (ts.length / ts.split) 1 with hq | hq
  · -- more steps than minutes: the `k - 1` steps still cover all but one step of the day
    have hstep : ts.step = 1440 * minute / ts.split := by
      unfold ClockSpan.step
      rw [hday]
    have hlt := Int.lt_ediv_add_one_mul_self (1440 * minute) hk0
    have hle := Int.mul_ediv_self_le (x := 1440 * minute) (ne_of_gt hk0)
    rw [← hstep] at hlt hle
    have hsmall : ts.step * ts.split ≤ 1440 * minute := by rw [Int.mul_comm]; exact hle
    have hsub : ((ts.split : Int) - 1) * ts.step = ts.step * ts.split - ts.step := by ring
    have hmin : minute ≤ ((ts.split : Int) - 1) * ts.step := by
      have : ts.step * 2 ≤ ts.step * ts.split :=
        Int.mul_le_mul_of_nonneg_left (by omega) hstep0
      have : (ts.step + 1) * ts.split = ts.step * ts.split + ts.split := by ring
      unfold GoTime.minute GoTime.second at *
      omega
    have : 1 ≤ ((ts.split : Int) - 1) * ts.step / minute :=
      (Int.le_ediv_iff_mul_le minute_pos).mpr (by rw [Int.one_mul]; exact hmin)
    have : 0 ≤ ts.length / ts.split := Int.ediv_nonneg (by omega) (le_of_lt hk0)
    omega
  · omega

/-- The sub-spans of a span split `k > 1` ways tile it exactly when `k` divides its length in
minutes. -/
theorem tiles_clockSpans_iff {ts : ClockSpan} (hts : ts.Valid) (hk : 1 < ts.split)
    (hne : ts.stop ≠ ts.start) :
    Tiles ts.clockSpans ts.start ts.stop ↔ (ts.split : Int) ∣ ts.length := by
  have hk0 : 0 < ts.split := by omega
  have hcast : ((ts.split - 1 : Nat) : Int) = ts.split - 1 := by omega
  have hL0 := length_nonneg hts
  have hL := length_le hts
  have hS := (minutes_of_valid hts.start).1
  rw [clockSpans_eq hts hk hne]
  constructor
  · rintro ⟨first, last, -, hlast, -, hstop, -⟩
    by_contra hnd
    simp only [List.getLast?_map, List.getLast?_range, if_neg (by omega : ts.split ≠ 0),
      Option.map_some, Option.some.injEq] at hlast
    rw [← hlast, timeOfDay_ofMinutes, stop_timeOfDay, hcast] at hstop
    have hend := lastStop_lt_length hts hk hnd
    have hq0 : 0 ≤ ts.length / ts.split := Int.ediv_nonneg hL0 (Int.natCast_nonneg _)
    have hsteps0 : 0 ≤ ((ts.split : Int) - 1) * ts.step / minute :=
      Int.ediv_nonneg (Int.mul_nonneg (by omega) (step_nonneg hts)) (le_of_lt minute_pos)
    by_cases hday : ts.length = 1440
    · have := lastStop_pos_of_day hts hk hday
      omega
    · omega
  · intro hdvd
    have hkq : (ts.split : Int) * (ts.length / ts.split) = ts.length := Int.mul_ediv_cancel' hdvd
    set f : Nat → ClockSpan := fun i =>
      ⟨Clock.ofMinutes (ts.start.minutes + i * ts.step / minute),
        Clock.ofMinutes (ts.start.minutes + i * ts.step / minute + ts.length / ts.split),
        0, ts.spread⟩ with hf
    refine ⟨f 0, f (ts.split - 1), ?_, ?_, ?_, ?_, ?_⟩
    · rw [List.head?_map, List.head?_range, if_neg (by omega), Option.map_some]
    · rw [List.getLast?_map, List.getLast?_range, if_neg (by omega), Option.map_some]
    · rw [timeOfDay_ofMinutes, mul_step_of_dvd hk0 hdvd]
      simp only [Nat.cast_zero, Int.zero_mul, Int.add_zero]
      rfl
    · rw [timeOfDay_ofMinutes, stop_timeOfDay, mul_step_of_dvd hk0 hdvd, hcast]
      have hsub : ((ts.split : Int) - 1) * (ts.length / ts.split) =
          ts.split * (ts.length / ts.split) - ts.length / ts.split := by ring
      omega
    · intro i hi
      simp only [List.getElem_map, List.getElem_range, hf]
      rw [mul_step_of_dvd hk0 hdvd, mul_step_of_dvd hk0 hdvd, Nat.cast_succ]
      congr 1
      ring

/-- Unless `k` divides the length, the last sub-span ends `m < L` minutes after the start of
the span: before its end. -/
theorem last_clockSpan_ends_before {ts : ClockSpan} (hts : ts.Valid) (hk : 1 < ts.split)
    (hne : ts.stop ≠ ts.start) (hnd : ¬(ts.split : Int) ∣ ts.length) :
    ∃ last m, ts.clockSpans.getLast? = some last ∧ 0 ≤ m ∧ m < ts.length ∧
      last.stop.timeOfDay = (ts.start.minutes + m) % 1440 := by
  have hcast : ((ts.split - 1 : Nat) : Int) = ts.split - 1 := by omega
  have hq0 : 0 ≤ ts.length / ts.split := Int.ediv_nonneg (length_nonneg hts) (Int.natCast_nonneg _)
  have hsteps0 : 0 ≤ ((ts.split : Int) - 1) * ts.step / minute :=
    Int.ediv_nonneg (Int.mul_nonneg (by omega) (step_nonneg hts)) (le_of_lt minute_pos)
  rw [clockSpans_eq hts hk hne, List.getLast?_map, List.getLast?_range, if_neg (by omega),
    Option.map_some]
  refine ⟨_, ((ts.split : Int) - 1) * ts.step / minute + ts.length / ts.split, rfl, by omega,
    lastStop_lt_length hts hk hnd, ?_⟩
  rw [timeOfDay_ofMinutes, hcast, Int.add_assoc]

/-- A schedule `ParseSchedule` returns is read back from its `String` by `parseEventSet`, up to
the count and spread of spans of no length; each of its clock spans split `k > 1` ways is cut
into `k` sub-spans of `⌊L / k⌋` minutes, which tile it exactly when `k` divides its length;
otherwise the last of them ends before the span does. -/
theorem parseSchedule_string_and_clockSpans_tile_iff_dvd {s : List Char}
    {scheds : List Schedule} (hs : parseSchedule s = .ok scheds) {sched : Schedule}
    (hsched : sched ∈ scheds) :
    parseEventSet sched.string = .ok sched.normalized ∧
      ∀ ts ∈ sched.clockSpans, 1 < ts.split → ts.stop ≠ ts.start →
        ts.clockSpans.length = ts.split ∧
          (∀ sub ∈ ts.clockSpans, sub.length = ts.length / ts.split) ∧
          (Tiles ts.clockSpans ts.start ts.stop ↔ (ts.split : Int) ∣ ts.length) ∧
          (¬(ts.split : Int) ∣ ts.length → ∃ last m, ts.clockSpans.getLast? = some last ∧
            0 ≤ m ∧ m < ts.length ∧ last.stop.timeOfDay = (ts.start.minutes + m) % 1440) := by
  have hvalid := parseSchedule_valid hs sched hsched
  refine ⟨parseEventSet_string hvalid, ?_⟩
  intro ts hts hk hne
  have htsv := hvalid.clockSpans ts hts
  exact ⟨clockSpans_length htsv hk hne, length_of_mem_clockSpans htsv hk hne,
    tiles_clockSpans_iff htsv hk hne, last_clockSpan_ends_before htsv hk hne⟩

theorem parseSchedule_string_and_clockSpans_tile_at_nine :
    parseSchedule "mon1-fri,09:00-11:00/2".toList =
        .ok [⟨[⟨⟨1, 1⟩, ⟨5, 0⟩⟩], [⟨⟨9, 0⟩, ⟨11, 0⟩, 2, false⟩]⟩] ∧
      parseEventSet (Schedule.string ⟨[⟨⟨1, 1⟩, ⟨5, 0⟩⟩], [⟨⟨9, 0⟩, ⟨11, 0⟩, 2, false⟩]⟩) =
        .ok (Schedule.normalized ⟨[⟨⟨1, 1⟩, ⟨5, 0⟩⟩], [⟨⟨9, 0⟩, ⟨11, 0⟩, 2, false⟩]⟩) ∧
      Tiles (ClockSpan.clockSpans ⟨⟨9, 0⟩, ⟨11, 0⟩, 2, false⟩) ⟨9, 0⟩ ⟨11, 0⟩ := by
  have hparse : parseSchedule "mon1-fri,09:00-11:00/2".toList =
      .ok [⟨[⟨⟨1, 1⟩, ⟨5, 0⟩⟩], [⟨⟨9, 0⟩, ⟨11, 0⟩, 2, false⟩]⟩] := by decide
  obtain ⟨hstring, hspans⟩ :=
    parseSchedule_string_and_clockSpans_tile_iff_dvd hparse (List.mem_singleton_self _)
  obtain ⟨-, -, htiles, -⟩ := hspans _ (List.mem_singleton_self _) (by decide) (by decide)
  exact ⟨hparse, hstring, htiles.mpr (by decide)⟩

/-- A span of three minutes split four ways: steps of `45 s`, read in whole minutes, leave a
gap after the second sub-span and end the last at `10:02`. -/
theorem clockSpans_gap_at_ten :
    parseSchedule "10:00-10:03/4".toList = .ok [⟨[], [⟨⟨10, 0⟩, ⟨10, 3⟩, 4, false⟩]⟩] ∧
      ClockSpan.clockSpans ⟨⟨10, 0⟩, ⟨10, 3⟩, 4, false⟩ =
        [⟨⟨10, 0⟩, ⟨10, 0⟩, 0, false⟩, ⟨⟨10, 0⟩, ⟨10, 0⟩, 0, false⟩,
          ⟨⟨10, 1⟩, ⟨10, 1⟩, 0, false⟩, ⟨⟨10, 2⟩, ⟨10, 2⟩, 0, false⟩] :=
  ⟨by decide, by decide⟩

end Snapd.Timeutil
