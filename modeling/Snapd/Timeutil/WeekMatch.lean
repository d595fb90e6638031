import Snapd.Timeutil.ScheduleParse
import Snapd.Lib.Refinement

/-! `WeekSpan.Match` and the date of the instant it is given. In a location of one offset
every instant the week helpers compute from `t` shows the clock of `t`: they move by whole days
(`t.Add(24 * time.Hour)`) or by `AddDate`, which keeps the clock. Moving `t` within its day
then moves each of them by as much, every comparison `Match` makes comes out the same, and
`Match` depends on the date of `t` alone. Where the offset changes within the month, the steps
of `24 * time.Hour` change the clock the found days show, and the date no longer decides. -/

namespace Snapd.Timeutil

open GoTime Refinement

section Shift

variable {o c δ : Int}

/-- `t'` is `t` moved by `δ`, where `t` shows the clock `c` in the location of offset `o`. -/
structure Shifted (o c δ : Int) (t t' : Time) : Prop where
  loc : t.loc = .fixed o
  nanoOfDay : t.nanoOfDay = c
  shift : t' = t.add δ

/-- The two ends of a range of days, each shifted. -/
def ShiftedRange (o c δ : Int) (r r' : Time × Time) : Prop :=
  Shifted o c δ r.1 r'.1 ∧ Shifted o c δ r.2 r'.2

theorem Time.add_comm (t : Time) (d e : Int) : (t.add d).add e = (t.add e).add d := by
  apply Time.ext
  · simp only [Time.add]
    ring
  · rfl

theorem Shifted.add {t t' : Time} (h : Shifted o c δ t t') {d : Int} (hd : oneDay ∣ d) :
    Shifted o c δ (t.add d) (t'.add d) where
  loc := by rw [Time.add_loc, h.loc]
  nanoOfDay := by rw [Time.nanoOfDay_add_of_dvd h.loc hd, h.nanoOfDay]
  shift := by rw [h.shift, Time.add_comm]

theorem Shifted.add_oneDay {t t' : Time} (h : Shifted o c δ t t') :
    Shifted o c δ (t.add oneDay) (t'.add oneDay) :=
  h.add (dvd_refl oneDay)

theorem Shifted.add_mul_oneDay {t t' : Time} (h : Shifted o c δ t t') (k : Int) :
    Shifted o c δ (t.add (k * oneDay)) (t'.add (k * oneDay)) :=
  h.add (dvd_mul_left oneDay k)

theorem Shifted.before {t t' s s' : Time} (h : Shifted o c δ t t') (hs : Shifted o c δ s s') :
    t'.before s' = t.before s := by
  rw [h.shift, hs.shift]
  simp only [Time.before, Time.add, Int.add_lt_add_iff_right]

theorem Shifted.after {t t' s s' : Time} (h : Shifted o c δ t t') (hs : Shifted o c δ s s') :
    t'.after s' = t.after s := by
  rw [h.shift, hs.shift]
  simp only [Time.after, Time.add, Int.add_lt_add_iff_right]

theorem Shifted.equal {t t' s s' : Time} (h : Shifted o c δ t t') (hs : Shifted o c δ s s') :
    t'.equal s' = t.equal s := by
  rw [h.shift, hs.shift]
  simp only [Time.equal, Time.add, Int.add_left_inj]

theorem outsideRange_shifted {t t' : Time} {r r' : Time × Time} (h : Shifted o c δ t t')
    (hr : ShiftedRange o c δ r r') : outsideRange t' r' = outsideRange t r := by
  unfold outsideRange
  rw [h.before hr.1, h.after hr.2]

variable (h0 : 0 ≤ c + δ) (h1 : c + δ < oneDay)
include h0 h1

theorem Shifted.days {t t' : Time} (h : Shifted o c δ t t') : t'.days = t.days := by
  rw [h.shift]
  exact Time.days_add_of_lt h.loc (by rw [h.nanoOfDay]; exact h0) (by rw [h.nanoOfDay]; exact h1)

theorem Shifted.weekday {t t' : Time} (h : Shifted o c δ t t') : t'.weekday = t.weekday := by
  rw [Time.weekday, Time.weekday, h.days h0 h1]

theorem Shifted.month {t t' : Time} (h : Shifted o c δ t t') : t'.month = t.month := by
  rw [Time.month, Time.month, h.days h0 h1]

theorem Shifted.day {t t' : Time} (h : Shifted o c δ t t') : t'.day = t.day := by
  rw [Time.day, Time.day, h.days h0 h1]

theorem Shifted.addDate {t t' : Time} (h : Shifted o c δ t t') (n : Int) :
    Shifted o c δ (t.addDate n) (t'.addDate n) where
  loc := h.loc
  nanoOfDay := by
    rw [Time.addDate, h.loc, Time.nanoOfDay_date (Time.nanoOfDay_nonneg t) (Time.nanoOfDay_lt t),
      h.nanoOfDay]
  shift := by
    rw [h.shift]
    exact Time.addDate_add_of_lt h.loc (by rw [h.nanoOfDay]; exact h0)
      (by rw [h.nanoOfDay]; exact h1) n

omit h0 h1 in
/-- A loop run from related instants, whose conditions agree and whose steps keep the
relation, stops at related instants. -/
theorem loopWhile_rel {R : Time → Time → Prop} {cond cond' : Time → Bool}
    {step step' : Time → Time} (hc : ∀ x y, R x y → cond' y = cond x)
    (hs : ∀ x y, R x y → R (step x) (step' y)) :
    ∀ fuel x y, R x y → Option.Rel R (loopWhile cond step fuel x) (loopWhile cond' step' fuel y) := by
  intro fuel
  induction fuel with
  | zero => exact fun _ _ _ => Option.Rel.none
  | succ fuel ih =>
    intro x y hxy
    simp only [loopWhile, hc x y hxy]
    split
    · exact ih _ _ (hs x y hxy)
    · exact Option.Rel.some hxy

theorem findNthWeekDayLoop_shifted (weekday : Int) (nthInMonth : Nat) :
    ∀ fuel nth {t t' : Time}, Shifted o c δ t t' →
      Option.Rel (Shifted o c δ) (findNthWeekDayLoop weekday nthInMonth fuel nth t)
        (findNthWeekDayLoop weekday nthInMonth fuel nth t') := by
  intro fuel
  induction fuel with
  | zero => exact fun _ _ _ _ => Option.Rel.none
  | succ fuel ih =>
    intro nth t t' h
    simp only [findNthWeekDayLoop, h.weekday h0 h1]
    split_ifs
    · exact Option.Rel.some h
    · exact ih _ h.add_oneDay
    · exact ih _ h.add_oneDay

theorem matchingWeekdaysLoop_shifted (month : Int) :
    ∀ fuel nth {t t' : Time}, Shifted o c δ t t' →
      matchingWeekdaysLoop month fuel nth t' = matchingWeekdaysLoop month fuel nth t := by
  intro fuel
  induction fuel with
  | zero => exact fun _ _ _ _ => rfl
  | succ fuel ih =>
    intro nth t t' h
    simp only [matchingWeekdaysLoop, h.month h0 h1]
    split
    · exact ih _ (h.add_mul_oneDay (-7))
    · rfl

theorem findNthWeekDay_shifted {t t' : Time} (h : Shifted o c δ t t') (weekday : Int)
    (nthInMonth : Nat) :
    Option.Rel (Shifted o c δ) (findNthWeekDay t weekday nthInMonth)
      (findNthWeekDay t' weekday nthInMonth) := by
  unfold findNthWeekDay
  rw [h.day h0 h1]
  exact findNthWeekDayLoop_shifted h0 h1 _ _ _ _ (h.addDate h0 h1 _)

theorem monthNext_shifted {t t' : Time} (h : Shifted o c δ t t') :
    Option.Rel (Shifted o c δ) (monthNext t) (monthNext t') := by
  unfold monthNext
  simp only [Option.bind_eq_bind]
  apply rel_bind (loopWhile_rel (R := Shifted o c δ)
    (fun x y hxy => by rw [hxy.month h0 h1, h.month h0 h1]) (fun _ _ hxy => hxy.add_oneDay) _ _ _
    (h.addDate h0 h1 28))
  intro n n' hn
  rw [hn.day h0 h1]
  split
  · exact Option.Rel.some (hn.addDate h0 h1 _)
  · exact Option.Rel.some hn

theorem monthPrev_shifted {t t' : Time} (h : Shifted o c δ t t') :
    Shifted o c δ (monthPrev t) (monthPrev t') := by
  unfold monthPrev
  rw [h.day h0 h1]
  exact h.addDate h0 h1 _

theorem findLastWeekDay_shifted {t t' : Time} (h : Shifted o c δ t t') (weekday : Int) :
    Option.Rel (Shifted o c δ) (findLastWeekDay t weekday) (findLastWeekDay t' weekday) := by
  unfold findLastWeekDay
  simp only [Option.bind_eq_bind]
  apply rel_bind (monthNext_shifted h0 h1 h)
  intro n n' hn
  have hstep := hn.add_mul_oneDay (-1)
  rw [Int.neg_one_mul] at hstep
  exact loopWhile_rel (R := Shifted o c δ) (fun x y hxy => by rw [hxy.weekday h0 h1])
    (fun x y hxy => by have := hxy.add_mul_oneDay (-1); rwa [Int.neg_one_mul] at this) _ _ _ hstep

omit h0 h1 in
/-- The last step of `dateRangeAnchoredAt`: a range whose end comes before its start runs on
into the next week. -/
theorem rangeOnward_shifted {s s' e e' : Time} (hs : Shifted o c δ s s') (he : Shifted o c δ e e')
    (ws : WeekSpan) :
    Option.Rel (ShiftedRange o c δ)
      (if (s.after e || s.equal e && !ws.isSingleDay) = true then
        if ws.anchoredAtStart = true then pure (s, e.add (7 * oneDay))
        else pure (s.add (-7 * oneDay), e)
      else pure (s, e))
      (if (s'.after e' || s'.equal e' && !ws.isSingleDay) = true then
        if ws.anchoredAtStart = true then pure (s', e'.add (7 * oneDay))
        else pure (s'.add (-7 * oneDay), e')
      else pure (s', e')) := by
  rw [hs.after he, hs.equal he]
  split_ifs
  · exact Option.Rel.some ⟨hs, he.add_mul_oneDay 7⟩
  · exact Option.Rel.some ⟨hs.add_mul_oneDay (-7), he⟩
  · exact Option.Rel.some ⟨hs, he⟩

theorem dateRangeAnchoredAt_shifted {t t' : Time} (h : Shifted o c δ t t') (ws : WeekSpan) :
    Option.Rel (ShiftedRange o c δ) (ws.dateRangeAnchoredAt t) (ws.dateRangeAnchoredAt t') := by
  unfold WeekSpan.dateRangeAnchoredAt
  simp only [Option.bind_eq_bind]
  by_cases hpos : (if ws.anchoredAtStart = true then ws.start.pos else ws.stop.pos) ≠ lastWeek
  · rw [if_pos hpos, if_pos hpos]
    exact rel_bind (findNthWeekDay_shifted h0 h1 h _ _) fun s s' hs =>
        rel_bind (findNthWeekDay_shifted h0 h1 h _ _) fun e e' he => rangeOnward_shifted hs he ws
  · rw [if_neg hpos, if_neg hpos]
    exact rel_bind (findLastWeekDay_shifted h0 h1 h _) fun s s' hs =>
      rel_bind (findLastWeekDay_shifted h0 h1 h _) fun e e' he => rangeOnward_shifted hs he ws

theorem matchingWeekdaysInMonth_shifted {t t' : Time} (h : Shifted o c δ t t') :
    matchingWeekdaysInMonth t' = matchingWeekdaysInMonth t := by
  unfold matchingWeekdaysInMonth
  rw [h.month h0 h1]
  exact matchingWeekdaysLoop_shifted h0 h1 _ _ _ h

theorem isLastWeekdayInMonth_shifted {t t' : Time} (h : Shifted o c δ t t') :
    isLastWeekdayInMonth t' = isLastWeekdayInMonth t := by
  unfold isLastWeekdayInMonth
  rw [h.month h0 h1, (h.add_mul_oneDay 7).month h0 h1]

theorem weekdayMatch_shifted {t t' : Time} (h : Shifted o c δ t t') (ws : WeekSpan) :
    ws.weekdayMatch t' = ws.weekdayMatch t := by
  unfold WeekSpan.weekdayMatch
  rw [h.weekday h0 h1]

theorem match_shifted {t t' : Time} (h : Shifted o c δ t t') (ws : WeekSpan) :
    ws.match t = ws.match t' := by
  unfold WeekSpan.match
  by_cases hevery : ws.start.pos = everyWeek ∧ ws.stop.pos = everyWeek
  · rw [if_pos hevery, if_pos hevery, weekdayMatch_shifted h0 h1 h]
  · rw [if_neg hevery, if_neg hevery]
    simp only [Option.bind_eq_bind]
    apply eq_of_rel_eq
    apply rel_bind (dateRangeAnchoredAt_shifted h0 h1 h ws)
    intro r r' hr
    rw [h.after hr.2, h.before hr.1, matchingWeekdaysInMonth_shifted h0 h1 h,
      isLastWeekdayInMonth_shifted h0 h1 h, outsideRange_shifted h hr]
    split_ifs
    -- the range of the month before, for `t` in the first week of its month
    · cases matchingWeekdaysInMonth t with
      | none => exact Option.Rel.none
      | some m =>
        dsimp only [Option.bind]
        split_ifs
        · exact Option.Rel.some rfl
        · exact rel_bind (dateRangeAnchoredAt_shifted h0 h1 (monthPrev_shifted h0 h1 h) ws)
            fun p p' hp => by rw [outsideRange_shifted h hp]; exact Option.Rel.some rfl
    · exact Option.Rel.some rfl
    -- the range of the month after, for `t` in the last week of its month
    · exact rel_bind (monthNext_shifted h0 h1 h) fun n n' hn =>
        rel_bind (dateRangeAnchoredAt_shifted h0 h1 hn ws)
          fun p p' hp => by rw [outsideRange_shifted h hp]; exact Option.Rel.some rfl
    · exact Option.Rel.some rfl

end Shift

/-- In a location of one offset, `WeekSpan.Match` answers alike at any two instants of one
day. -/
theorem match_eq_of_days_eq {o : Int} {t t' : Time} (hloc : t.loc = .fixed o)
    (hloc' : t'.loc = .fixed o) (hdays : t.days = t'.days) (ws : WeekSpan) :
    ws.match t = ws.match t' := by
  have hshift : Shifted o t.nanoOfDay (t'.unixNano - t.unixNano) t t' := by
    refine ⟨hloc, rfl, ?_⟩
    apply Time.ext
    · simp only [Time.add]
      ring
    · rw [Time.add_loc, hloc, hloc']
  have hnano : t'.nanoOfDay = t.nanoOfDay + (t'.unixNano - t.unixNano) := by
    have ht := Time.localNano_eq t
    have ht' := Time.localNano_eq t'
    rw [Time.localNano_of_fixed hloc] at ht
    rw [Time.localNano_of_fixed hloc'] at ht'
    rw [← hdays] at ht'
    linear_combination ht - ht'
  have h0 := Time.nanoOfDay_nonneg t'
  have h1 := Time.nanoOfDay_lt t'
  rw [hnano] at h0 h1
  exact match_shifted h0 h1 hshift ws

/-- `00:30` and noon of Monday 2024-03-11 at the fixed offset UTC-4. -/
theorem mon2_alike_on_one_day_at_fixed_offset :
    (⟨1710131400 * second, .fixed (-14400)⟩ : Time).loc = .fixed (-14400) ∧
      (⟨1710172800 * second, .fixed (-14400)⟩ : Time).loc = .fixed (-14400) ∧
      (⟨1710131400 * second, .fixed (-14400)⟩ : Time).days =
        (⟨1710172800 * second, .fixed (-14400)⟩ : Time).days ∧
      WeekSpan.match ⟨⟨1, 2⟩, ⟨1, 2⟩⟩ ⟨1710131400 * second, .fixed (-14400)⟩ =
        WeekSpan.match ⟨⟨1, 2⟩, ⟨1, 2⟩⟩ ⟨1710172800 * second, .fixed (-14400)⟩ :=
  ⟨rfl, rfl, by decide, match_eq_of_days_eq rfl rfl (by decide) _⟩

/-- A location that moves its clocks from UTC-5 to UTC-4 at 2024-03-10 07:00 UTC. -/
def springForward2024 : Location := ⟨-18000, [(1710054000, -14400)]⟩

/-- `mon2` on Monday 2024-03-11, the second Monday of March, the day after the clocks moved:
stepping `24 * time.Hour` from the first of the month, `findNthWeekDay` finds that Monday an
hour later on the clock than the instant it is given, at `00:30` as at noon, so `Match` sees
the instant before the range and rejects it. -/
theorem second_monday_missed_after_spring_forward :
    parseWeekSpan "mon2".toList = .ok ⟨⟨1, 2⟩, ⟨1, 2⟩⟩ ∧
      (⟨1710131400 * second, springForward2024⟩ : Time).weekday = 1 ∧
      (⟨1710131400 * second, springForward2024⟩ : Time).day = 11 ∧
      (⟨1710131400 * second, springForward2024⟩ : Time).days =
        (⟨1710172800 * second, springForward2024⟩ : Time).days ∧
      WeekSpan.match ⟨⟨1, 2⟩, ⟨1, 2⟩⟩ ⟨1710131400 * second, springForward2024⟩ = some false ∧
      WeekSpan.match ⟨⟨1, 2⟩, ⟨1, 2⟩⟩ ⟨1710172800 * second, springForward2024⟩ = some false := by
  decide

end Snapd.Timeutil
