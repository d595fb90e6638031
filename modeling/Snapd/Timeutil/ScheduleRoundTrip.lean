import Snapd.Timeutil.ScheduleParse
import Snapd.Timeutil.Next
import Snapd.Lib.Run

/-! What `parseEventSet` accepts is well formed, and the `String` of a well-formed schedule is
read back by `parseEventSet` to the same schedule, a clock span of no length losing its count
and its spread (its `String` is its start alone). Then the sub-spans that `ClockSpans` splits a
span into: `k` spans of `⌊L / k⌋` minutes for a span of `L` minutes, which tile the span
exactly when `k` divides `L`. -/

namespace Snapd.Timeutil

open GoText Run

/-! ## Well-formed values

A clock `ParseClock` gives is `Clock.Valid`, as `Schedule.Next` is proved about. -/

/-- A week day `parseWeekday` gives. -/
structure Week.Valid (w : Week) : Prop where
  weekday_nonneg : 0 ≤ w.weekday
  weekday_le : w.weekday ≤ 6
  pos_le : w.pos ≤ lastWeek

/-- A week span `parseWeekSpan` gives: a week number at both ends only on a single day. -/
structure WeekSpan.Valid (ws : WeekSpan) : Prop where
  start : ws.start.Valid
  stop : ws.stop.Valid
  anchored : ws.start.pos ≠ everyWeek → ws.stop.pos ≠ everyWeek → ws.start = ws.stop

/-- A clock span `parseClockSpan` gives. -/
structure ClockSpan.Valid (ts : ClockSpan) : Prop where
  start : ts.start.Valid
  stop : ts.stop.Valid
  split_lt : ts.split < 2 ^ 32

/-- A schedule `parseEventSet` gives: at least one span, each well formed. -/
structure Schedule.Valid (sched : Schedule) : Prop where
  weekSpans : ∀ ws ∈ sched.weekSpans, ws.Valid
  clockSpans : ∀ ts ∈ sched.clockSpans, ts.Valid
  ne_nil : sched.weekSpans ≠ [] ∨ sched.clockSpans ≠ []

/-- A clock span as its `String` is read back: one of no length has no count and no spread. -/
def ClockSpan.normalized (ts : ClockSpan) : ClockSpan :=
  if ts.stop = ts.start then { ts with split := 0, spread := false } else ts

/-- A schedule as its `String` is read back. -/
def Schedule.normalized (sched : Schedule) : Schedule :=
  { sched with clockSpans := sched.clockSpans.map ClockSpan.normalized }

theorem digitValue_le_of_le {c d : Char} (h : c ≤ d) : digitValue c ≤ digitValue d := by
  have : c.toNat ≤ d.toNat := h
  unfold digitValue
  omega

theorem digitValue_lt_of_isDigit {c : Char} (h : c.isDigit = true) : digitValue c < 10 := by
  simp only [Char.isDigit, Bool.and_eq_true, decide_eq_true_eq] at h
  have := digitValue_le_of_le h.2
  have : digitValue '9' = 9 := rfl
  omega

theorem hourDigits_value {h1 h2 : Char} (h : hourDigits h1 h2 = true) :
    10 * digitValue h1 + digitValue h2 < 24 := by
  simp only [hourDigits, Bool.or_eq_true, Bool.and_eq_true, decide_eq_true_eq] at h
  rcases h with ⟨h1 | h1, h2⟩ | ⟨⟨rfl, -⟩, h2⟩
  · subst h1
    have := digitValue_lt_of_isDigit h2
    have : digitValue '0' = 0 := rfl
    omega
  · subst h1
    have := digitValue_lt_of_isDigit h2
    have : digitValue '1' = 1 := rfl
    omega
  · have := digitValue_le_of_le h2
    have : digitValue '3' = 3 := rfl
    have : digitValue '2' = 2 := rfl
    omega

theorem minuteDigits_value {m1 m2 : Char} (h : minuteDigits m1 m2 = true) :
    10 * digitValue m1 + digitValue m2 < 60 := by
  simp only [minuteDigits, Bool.and_eq_true, decide_eq_true_eq] at h
  have := digitValue_le_of_le h.1.2
  have := digitValue_lt_of_isDigit h.2
  have : digitValue '5' = 5 := rfl
  omega

theorem decimalValue_pair (a b : Char) : decimalValue [a, b] = 10 * digitValue a + digitValue b := by
  simp [decimalValue]

/-- The groups `findValidTime` gives are an hour and a minute of the day, unless it matched
`24:00`. -/
theorem findValidTime_groups {s m0 m1 m2 : List Char} (h : findValidTime s = some (m0, m1, m2))
    (h24 : m0 ≠ "24:00".toList) : decimalValue m1 < 24 ∧ decimalValue m2 < 60 := by
  unfold findValidTime at h
  split at h
  · rename_i hs
    cases h
    exact absurd hs h24
  · split at h
    · -- `[0-9]:[0-5][0-9]`
      split at h
      · rename_i hh mm1 mm2 hdig
        cases h
        simp only [Bool.and_eq_true] at hdig
        have := digitValue_lt_of_isDigit hdig.1
        have := minuteDigits_value hdig.2
        rw [decimalValue_pair]
        simp only [decimalValue, List.foldl_cons, List.foldl_nil]
        omega
      · cases h
    · -- `(0[0-9]|1[0-9]|2[0-3]):[0-5][0-9]`
      split at h
      · rename_i hh1 hh2 mm1 mm2 hdig
        cases h
        simp only [Bool.and_eq_true] at hdig
        rw [decimalValue_pair, decimalValue_pair]
        exact ⟨hourDigits_value hdig.1, minuteDigits_value hdig.2⟩
      · cases h
    · cases h

theorem atoi_eq_ok {s : List Char} {v : Int} (h : atoi s = .ok v) : v = decimalValue s := by
  unfold atoi at h
  split at h
  · rename_i w hw
    simp only [Except.ok.injEq] at h
    subst h
    simp only [readDecimal] at hw
    split at hw
    · cases hw
      rfl
    · cases hw
  · cases h

theorem parseClock_valid {s : List Char} {c : Clock} (h : parseClock s = .ok c) : c.Valid := by
  unfold parseClock at h
  split at h
  · cases h
  · rename_i m0 m1 m2 hfind
    split at h
    · cases h
      exact .inr ⟨rfl, rfl⟩
    · rename_i h24
      obtain ⟨hour, hhour, h⟩ := bind_eq_ok.mp h
      obtain ⟨minute, hminute, h⟩ := bind_eq_ok.mp h
      simp only [pure, Except.pure, Except.ok.injEq] at h
      subst h
      have hgroups := findValidTime_groups hfind h24
      rw [atoi_eq_ok (mapError_eq_ok.mp hhour), atoi_eq_ok (mapError_eq_ok.mp hminute)]
      have hhour := hgroups.1
      have hminute := hgroups.2
      exact .inl ⟨Int.natCast_nonneg _, by dsimp only; omega, Int.natCast_nonneg _,
        by dsimp only; omega⟩

theorem hourDigits_digitChar :
    ∀ a b : Fin 10, 10 * a.val + b.val < 24 → hourDigits (Nat.digitChar a) (Nat.digitChar b) = true := by
  decide

theorem minuteDigits_digitChar :
    ∀ a b : Fin 10, 10 * a.val + b.val < 60 → minuteDigits (Nat.digitChar a) (Nat.digitChar b) = true := by
  decide

theorem Clock.string_of_lt {c : Clock} (hh0 : 0 ≤ c.hour) (hh : c.hour ≤ 23) (hm0 : 0 ≤ c.minute)
    (hm : c.minute ≤ 59) :
    c.string = [Nat.digitChar (c.hour.toNat / 10), Nat.digitChar (c.hour.toNat % 10), ':',
      Nat.digitChar (c.minute.toNat / 10), Nat.digitChar (c.minute.toNat % 10)] := by
  rw [Clock.string, sprintf02d_of_lt hh0 (by omega), sprintf02d_of_lt hm0 (by omega)]
  rfl

theorem findValidTime_five {x1 x2 y1 y2 : Char} (h24 : [x1, x2, ':', y1, y2] ≠ "24:00".toList)
    (hh : hourDigits x1 x2 = true) (hm : minuteDigits y1 y2 = true) :
    findValidTime [x1, x2, ':', y1, y2] = some ([x1, x2, ':', y1, y2], [x1, x2], [y1, y2]) := by
  unfold findValidTime
  rw [if_neg h24]
  simp [hh, hm]

theorem readDecimal_digitChars {a b : Nat} (ha : a < 10) (hb : b < 10) :
    readDecimal [Nat.digitChar a, Nat.digitChar b] = some (10 * a + b) := by
  simp [readDecimal, isDigit_digitChar ha, isDigit_digitChar hb, decimalValue_pair,
    digitValue_digitChar ha, digitValue_digitChar hb]

theorem parseClock_string {c : Clock} (hc : c.Valid) : parseClock c.string = .ok c := by
  rcases hc with ⟨hh0, hh, hm0, hm⟩ | ⟨h24, h0⟩
  · have hdiv : c.hour.toNat / 10 < 10 := by omega
    have hmod : c.hour.toNat % 10 < 10 := Nat.mod_lt _ (by omega)
    have mdiv : c.minute.toNat / 10 < 10 := by omega
    have mmod : c.minute.toNat % 10 < 10 := Nat.mod_lt _ (by omega)
    have hhour := hourDigits_digitChar ⟨_, hdiv⟩ ⟨_, hmod⟩ (by simp only; omega)
    have hminute := minuteDigits_digitChar ⟨_, mdiv⟩ ⟨_, mmod⟩ (by simp only; omega)
    have h24 : [Nat.digitChar (c.hour.toNat / 10), Nat.digitChar (c.hour.toNat % 10), ':',
        Nat.digitChar (c.minute.toNat / 10), Nat.digitChar (c.minute.toNat % 10)] ≠
        "24:00".toList := by
      intro heq
      have hvalue := congrArg (fun l => decimalValue (l.take 2)) heq
      simp only [List.take_succ_cons, List.take_zero, decimalValue_pair,
        digitValue_digitChar hdiv, digitValue_digitChar hmod] at hvalue
      have : decimalValue ("24:00".toList.take 2) = 24 := rfl
      omega
    rw [Clock.string_of_lt hh0 hh hm0 hm]
    unfold parseClock
    rw [findValidTime_five h24 hhour hminute]
    dsimp only
    rw [if_neg h24]
    simp only [atoi, readDecimal_digitChars hdiv hmod, readDecimal_digitChars mdiv mmod]
    simp only [Except.mapError, bind, Except.bind, pure, Except.pure, Except.ok.injEq]
    obtain ⟨hour, minute⟩ := c
    dsimp only at hh0 hh hm0 hm ⊢
    simp only [Clock.mk.injEq]
    omega
  · obtain ⟨hour, minute⟩ := c
    dsimp only at h24 h0
    subst h24 h0
    rfl

theorem Clock.mem_string {c : Clock} (hc : c.Valid) {x : Char} (hx : x ∈ c.string) :
    x.isDigit = true ∨ x = ':' := by
  rcases hc with ⟨hh0, hh, hm0, hm⟩ | ⟨h24, h0⟩
  · have hdiv : c.hour.toNat / 10 < 10 := by omega
    have mdiv : c.minute.toNat / 10 < 10 := by omega
    rw [Clock.string_of_lt hh0 hh hm0 hm] at hx
    simp only [List.mem_cons, List.not_mem_nil, or_false] at hx
    rcases hx with rfl | rfl | rfl | rfl | rfl
    · exact .inl (isDigit_digitChar hdiv)
    · exact .inl (isDigit_digitChar (Nat.mod_lt _ (by omega)))
    · exact .inr rfl
    · exact .inl (isDigit_digitChar mdiv)
    · exact .inl (isDigit_digitChar (Nat.mod_lt _ (by omega)))
  · obtain ⟨hour, minute⟩ := c
    dsimp only at h24 h0
    subst h24 h0
    have hs : Clock.string ⟨24, 0⟩ = ['2', '4', ':', '0', '0'] := by decide
    rw [hs] at hx
    simp only [List.mem_cons, List.not_mem_nil, or_false] at hx
    rcases hx with rfl | rfl | rfl | rfl | rfl <;> decide

theorem Clock.not_mem_string {c : Clock} (hc : c.Valid) {x : Char} (hd : x.isDigit = false)
    (hcolon : x ≠ ':') : x ∉ c.string := fun hx => by
  rcases Clock.mem_string hc hx with h | h
  · rw [hd] at h
    cases h
  · exact hcolon h

theorem Clock.colon_mem_string {c : Clock} (hc : c.Valid) : ':' ∈ c.string := by
  rcases hc with ⟨hh0, hh, hm0, hm⟩ | ⟨h24, h0⟩
  · rw [Clock.string_of_lt hh0 hh hm0 hm]
    simp
  · obtain ⟨hour, minute⟩ := c
    dsimp only at h24 h0
    subst h24 h0
    decide

theorem Clock.string_ne_dash {c : Clock} (hc : c.Valid) : c.string ≠ [spanToken] := fun h => by
  have hcolon := Clock.colon_mem_string hc
  rw [h] at hcolon
  simp [spanToken] at hcolon

theorem week_string_table : ∀ d : Fin 7, ∀ p : Fin 6,
    parseWeekday (Week.string ⟨d.val, p.val⟩) = .ok ⟨d.val, p.val⟩ ∧
      (Week.string ⟨d.val, p.val⟩).all Char.isAlphanum = true ∧
      Week.string ⟨d.val, p.val⟩ ≠ [] := by
  decide

theorem Week.string_spec {w : Week} (hw : w.Valid) :
    parseWeekday w.string = .ok w ∧ (∀ x ∈ w.string, x.isAlphanum = true) ∧ w.string ≠ [] := by
  obtain ⟨d, p⟩ := w
  obtain ⟨hd0, hd6, hp⟩ := hw
  dsimp only at hd0 hd6 hp
  have hp' : p < 6 := by simp only [lastWeek] at hp; omega
  obtain ⟨hparse, halnum, hne⟩ := week_string_table ⟨d.toNat, by omega⟩ ⟨p, hp'⟩
  simp only [Int.toNat_of_nonneg hd0] at hparse halnum hne
  exact ⟨hparse, fun x hx => List.all_eq_true.mp halnum x hx, hne⟩

theorem parseWeekday_string {w : Week} (hw : w.Valid) : parseWeekday w.string = .ok w :=
  (Week.string_spec hw).1

theorem Week.not_mem_string {w : Week} (hw : w.Valid) {x : Char} (hx : x.isAlphanum = false) :
    x ∉ w.string := fun hmem => by
  rw [(Week.string_spec hw).2.1 x hmem] at hx
  cases hx

theorem weekdayMap_lookup {day : List Char} {d : Int} (h : weekdayMap.lookup day = some d) :
    0 ≤ d ∧ d ≤ 6 := by
  obtain ⟨l₁, l₂, hmap, -⟩ := List.lookup_eq_some_iff.mp h
  have hmem : (day, d) ∈ weekdayMap := hmap ▸ List.mem_append_right l₁ List.mem_cons_self
  have hall : ∀ e ∈ weekdayMap, 0 ≤ e.2 ∧ e.2 ≤ 6 := by decide
  exact hall _ hmem

theorem weekdayParts_pos {s day : List Char} {pos : Nat} (h : weekdayParts s = .ok (day, pos)) :
    pos ≤ lastWeek := by
  unfold weekdayParts at h
  split at h
  · split at h
    · split at h
      · cases h
      · rename_i hrange
        simp only [Except.ok.injEq, Prod.mk.injEq] at h
        simp only [lastWeek]
        omega
    · cases h
  · simp only [Except.ok.injEq, Prod.mk.injEq] at h
    simp only [lastWeek]
    omega

theorem parseWeekday_valid {s : List Char} {w : Week} (h : parseWeekday s = .ok w) : w.Valid := by
  unfold parseWeekday at h
  split at h
  · cases h
  · obtain ⟨⟨day, pos⟩, hparts, h⟩ := bind_eq_ok.mp h
    dsimp only at h
    split at h
    · rename_i weekday hlookup
      simp only [pure, Except.pure, Except.ok.injEq] at h
      subst h
      exact ⟨(weekdayMap_lookup hlookup).1, (weekdayMap_lookup hlookup).2, weekdayParts_pos hparts⟩
    · cases h

theorem anchorWeekSpan_valid {s : List Char} {start stop : Week} {ws : WeekSpan}
    (hstart : start.Valid) (hstop : stop.Valid) (h : anchorWeekSpan s ⟨start, stop⟩ = .ok ws) :
    ws.Valid := by
  unfold anchorWeekSpan at h
  split at h
  · split at h
    · cases h
    · split at h
      · -- over several days: the end loses its week number
        cases h
        refine ⟨hstart, ⟨hstop.weekday_nonneg, hstop.weekday_le, by simp [everyWeek, lastWeek]⟩, ?_⟩
        intro _ hpos
        exact absurd rfl hpos
      · rename_i hsingle
        cases h
        refine ⟨hstart, hstop, fun _ _ => ?_⟩
        simpa [WeekSpan.isSingleDay] using hsingle
  · rename_i hnot
    cases h
    exact ⟨hstart, hstop, fun h1 h2 => absurd ⟨h1, h2⟩ hnot⟩

theorem parseWeekSpan_valid {s : List Char} {ws : WeekSpan} (h : parseWeekSpan s = .ok ws) :
    ws.Valid := by
  unfold parseWeekSpan at h
  dsimp only at h
  split at h
  · cases h
  · obtain ⟨start, hstart, h⟩ := bind_eq_ok.mp h
    obtain ⟨stop, hstop, h⟩ := bind_eq_ok.mp h
    have hvstart := parseWeekday_valid (mapError_eq_ok.mp hstart)
    have hvstop : stop.Valid := by
      split at hstop
      · exact parseWeekday_valid (mapError_eq_ok.mp hstop)
      · simp only [pure, Except.pure, Except.ok.injEq] at hstop
        exact hstop ▸ hvstart
    exact anchorWeekSpan_valid hvstart hvstop h

theorem WeekSpan.not_mem_string {ws : WeekSpan} (hws : ws.Valid) {x : Char}
    (hx : x.isAlphanum = false) (hdash : x ≠ '-') : x ∉ ws.string := by
  unfold WeekSpan.string
  split
  · simp only [List.mem_append, List.mem_cons, not_or]
    exact ⟨Week.not_mem_string hws.start hx, hdash, Week.not_mem_string hws.stop hx⟩
  · exact Week.not_mem_string hws.start hx

theorem WeekSpan.string_ne_nil (ws : WeekSpan) (hws : ws.Valid) : ws.string ≠ [] := by
  unfold WeekSpan.string
  split
  · simp
  · exact (Week.string_spec hws.start).2.2

theorem anchorWeekSpan_of_valid (s : List Char) {ws : WeekSpan} (hws : ws.Valid) :
    anchorWeekSpan s ws = .ok ws := by
  unfold anchorWeekSpan
  split
  · rename_i hboth
    have hsame := hws.anchored hboth.1 hboth.2
    rw [if_neg (by rw [hsame]; exact Nat.lt_irrefl _),
      if_neg (by simp [WeekSpan.isSingleDay, hsame])]
  · rfl

theorem parseWeekSpan_string {ws : WeekSpan} (hws : ws.Valid) : parseWeekSpan ws.string = .ok ws := by
  have hdash (w : Week) (hw : w.Valid) : spanToken ∉ w.string := Week.not_mem_string hw rfl
  unfold WeekSpan.string
  split
  · -- `start-end`: two days around the dash
    have hsplit := splitOn_append_cons (hdash _ hws.start) (hdash _ hws.stop)
    simp only [parseWeekSpan, spanToken] at hsplit ⊢
    simp only [hsplit, List.length_cons, List.length_nil, List.getD_cons_zero,
      List.getD_cons_succ, parseWeekday_string hws.start, parseWeekday_string hws.stop,
      Except.mapError, bind, Except.bind]
    exact anchorWeekSpan_of_valid _ hws
  · rename_i heq
    have hstop : ws.stop = ws.start := by simpa using heq
    have hsplit := splitOn_of_not_mem (hdash _ hws.start)
    simp only [parseWeekSpan, spanToken] at hsplit ⊢
    simp only [hsplit, List.length_cons, List.length_nil, List.getD_cons_zero,
      parseWeekday_string hws.start, Except.mapError, bind, Except.bind, pure, Except.pure]
    obtain ⟨start, stop⟩ := ws
    dsimp only at hstop ⊢
    subst hstop
    exact anchorWeekSpan_of_valid _ hws

theorem parseCount_split_lt {s rest : List Char} {split : Nat}
    (h : parseCount s = .ok (split, rest)) : split < 2 ^ 32 := by
  unfold parseCount at h
  split at h
  · cases h
    decide
  · split at h
    · split at h
      · rename_i c hc
        split at h
        · cases h
        · cases h
          exact (parseUint_eq_some hc).2
      · cases h
    · cases h

theorem parseClockRange_valid {s : List Char} {start stop : Clock}
    (h : parseClockRange s = .ok (start, stop)) : start.Valid ∧ stop.Valid := by
  unfold parseClockRange at h
  split at h
  · obtain ⟨c0, h0, h⟩ := bind_eq_ok.mp h
    obtain ⟨c1, h1, h⟩ := bind_eq_ok.mp h
    simp only [pure, Except.pure, Except.ok.injEq, Prod.mk.injEq] at h
    obtain ⟨rfl, rfl⟩ := h
    exact ⟨parseClock_valid (mapError_eq_ok.mp h0), parseClock_valid (mapError_eq_ok.mp h1)⟩
  · cases h

theorem clockSpanBounds_valid {rest : List Char} {start stop : Clock}
    (h : clockSpanBounds rest = .ok (start, stop)) : start.Valid ∧ stop.Valid := by
  unfold clockSpanBounds at h
  split at h
  · -- `-` alone: the whole day
    cases h
    exact ⟨.inl ⟨by decide, by decide, by decide, by decide⟩, .inr ⟨rfl, rfl⟩⟩
  · split at h
    · exact parseClockRange_valid h
    · cases hc : parseClock rest with
      | error e => rw [hc] at h; cases h
      | ok c =>
        rw [hc] at h
        simp only [Except.map, Except.ok.injEq, Prod.mk.injEq] at h
        obtain ⟨rfl, rfl⟩ := h
        exact ⟨parseClock_valid hc, parseClock_valid hc⟩

theorem parseClockSpan_valid {s : List Char} {ts : ClockSpan} (h : parseClockSpan s = .ok ts) :
    ts.Valid := by
  unfold parseClockSpan at h
  split at h
  · cases h
  · rename_i split rest hcount
    dsimp only at h
    split at h
    · cases h
    · rename_i start stop hbounds
      cases h
      exact ⟨(clockSpanBounds_valid hbounds).1, (clockSpanBounds_valid hbounds).2,
        parseCount_split_lt hcount⟩

theorem ClockSpan.string_of_ne {ts : ClockSpan} (h : ts.stop ≠ ts.start) :
    ts.string = ts.start.string ++ (if ts.spread then '~' else '-') :: ts.stop.string ++
      (if ts.split > 0 then '/' :: itoa ts.split else []) := by
  unfold ClockSpan.string
  dsimp only
  rw [if_pos h]

theorem ClockSpan.string_of_eq {ts : ClockSpan} (h : ts.stop = ts.start) :
    ts.string = ts.start.string := by
  unfold ClockSpan.string
  dsimp only
  rw [if_neg (not_not.mpr h)]

theorem ClockSpan.mem_string {ts : ClockSpan} (hts : ts.Valid) {x : Char} (hx : x ∈ ts.string) :
    x.isDigit = true ∨ x = ':' ∨ x = '-' ∨ x = '~' ∨ x = '/' := by
  by_cases hne : ts.stop = ts.start
  · rw [ClockSpan.string_of_eq hne] at hx
    rcases Clock.mem_string hts.start hx with h | h <;> simp [h]
  · rw [ClockSpan.string_of_ne hne] at hx
    simp only [List.mem_append, List.mem_cons] at hx
    rcases hx with (hx | hx | hx) | hx
    · rcases Clock.mem_string hts.start hx with h | h <;> simp [h]
    · split at hx <;> simp [hx]
    · rcases Clock.mem_string hts.stop hx with h | h <;> simp [h]
    · split at hx
      · simp only [List.mem_cons] at hx
        rcases hx with rfl | hx
        · simp
        · exact .inl (isDigit_of_mem_itoa hx)
      · simp at hx

theorem ClockSpan.colon_mem_string {ts : ClockSpan} (hts : ts.Valid) : ':' ∈ ts.string := by
  by_cases hne : ts.stop = ts.start
  · rw [ClockSpan.string_of_eq hne]
    exact Clock.colon_mem_string hts.start
  · rw [ClockSpan.string_of_ne hne, List.append_assoc]
    exact List.mem_append_left _ (Clock.colon_mem_string hts.start)

theorem parseCount_of_not_mem {s : List Char} (h : '/' ∉ s) : parseCount s = .ok (0, s) := by
  simp [parseCount, countToken, h]

theorem parseCount_count {rest : List Char} {n : Nat} (hr : '/' ∉ rest) (hpos : 0 < n)
    (hn : n < 2 ^ 32) : parseCount (rest ++ '/' :: itoa n) = .ok (n, rest) := by
  have hdigits : '/' ∉ itoa n := fun h => by
    have := isDigit_of_mem_itoa h
    simp at this
  have hsplit := splitOn_append_cons hr hdigits
  unfold parseCount
  rw [if_neg (by simp [countToken])]
  simp only [countToken, hsplit, parseUint_itoa hn, if_neg (Nat.pos_iff_ne_zero.mp hpos)]

theorem parseClockRange_string {start stop : Clock} (hs : start.Valid) (he : stop.Valid) :
    parseClockRange (start.string ++ '-' :: stop.string) = .ok (start, stop) := by
  have hdash : '-' ∉ start.string := Clock.not_mem_string hs rfl (by decide)
  unfold parseClockRange
  rw [splitN_two hdash]
  simp only [parseClock_string hs, parseClock_string he, Except.mapError, bind, Except.bind,
    pure, Except.pure]

theorem clockSpanBounds_range {start stop : Clock} (hs : start.Valid) (he : stop.Valid) :
    clockSpanBounds (start.string ++ '-' :: stop.string) = .ok (start, stop) := by
  have hne : start.string ++ '-' :: stop.string ≠ [spanToken] := fun h => by
    have := congrArg List.length h
    have hcolon := List.length_pos_of_mem (Clock.colon_mem_string hs)
    simp at this
    omega
  unfold clockSpanBounds
  rw [if_neg hne, if_pos (by simp [spanToken]), parseClockRange_string hs he]

theorem clockSpanBounds_single {start : Clock} (hs : start.Valid) :
    clockSpanBounds start.string = .ok (start, start) := by
  unfold clockSpanBounds
  rw [if_neg (Clock.string_ne_dash hs), if_neg (Clock.not_mem_string hs rfl (by decide)),
    parseClock_string hs]
  rfl

/-- `parseClockSpan` reads a well-formed clock span back from its `String`, one of no length
without its count and spread. -/
theorem parseClockSpan_string {ts : ClockSpan} (hts : ts.Valid) :
    parseClockSpan ts.string = .ok ts.normalized := by
  have hS (c : Clock) (hc : c.Valid) (x : Char) (hx : x.isDigit = false) (hcolon : x ≠ ':') :
      x ∉ c.string := Clock.not_mem_string hc hx hcolon
  by_cases heq : ts.stop = ts.start
  · have hcount := parseCount_of_not_mem (hS _ hts.start '/' rfl (by decide))
    have hspread : decide (spreadToken ∈ ts.start.string) = false := by
      simpa using hS _ hts.start spreadToken rfl (by decide)
    rw [ClockSpan.string_of_eq heq]
    unfold parseClockSpan
    rw [hcount]
    dsimp only
    rw [hspread]
    simp only [Bool.false_eq_true, if_false]
    rw [clockSpanBounds_single hts.start, ClockSpan.normalized, if_pos heq]
    obtain ⟨start, stop, split, spread⟩ := ts
    dsimp only at heq ⊢
    rw [heq]
  · -- `start-end` or `start~end`, with `/count` when there is a count
    have hbody : '/' ∉ ts.start.string ++ (if ts.spread then '~' else '-') :: ts.stop.string := by
      simp only [List.mem_append, List.mem_cons, not_or]
      refine ⟨hS _ hts.start _ rfl (by decide), by split <;> decide, hS _ hts.stop _ rfl (by decide)⟩
    have hcount : parseCount (ts.start.string ++ (if ts.spread then '~' else '-') :: ts.stop.string ++
        (if ts.split > 0 then '/' :: itoa ts.split else [])) =
        .ok (ts.split, ts.start.string ++ (if ts.spread then '~' else '-') :: ts.stop.string) := by
      by_cases hpos : ts.split > 0
      · rw [if_pos hpos]
        exact parseCount_count hbody hpos hts.split_lt
      · rw [if_neg hpos, List.append_nil, parseCount_of_not_mem hbody]
        simp only [Except.ok.injEq, Prod.mk.injEq, and_true]
        omega
    -- the separator is the only `~`, and `Replace` turns it into `-`
    have h1 := hS _ hts.start '~' rfl (by decide)
    have h2 := hS _ hts.stop '~' rfl (by decide)
    have hspread : decide (spreadToken ∈ ts.start.string ++ (if ts.spread then '~' else '-') ::
        ts.stop.string) = ts.spread := by
      cases ts.spread <;> simp [spreadToken, h1, h2]
    have hrest : (if decide (spreadToken ∈ ts.start.string ++ (if ts.spread then '~' else '-') ::
        ts.stop.string) = true then (ts.start.string ++ (if ts.spread then '~' else '-') ::
        ts.stop.string).replace spreadToken spanToken
        else ts.start.string ++ (if ts.spread then '~' else '-') :: ts.stop.string) =
        ts.start.string ++ '-' :: ts.stop.string := by
      rw [hspread]
      cases ts.spread
      · rfl
      · simp [List.replace_append, h1, spreadToken, spanToken]
    rw [ClockSpan.string_of_ne heq]
    unfold parseClockSpan
    rw [hcount]
    dsimp only
    rw [hrest, clockSpanBounds_range hts.start hts.stop, hspread, ClockSpan.normalized, if_neg heq]

theorem eventSetStep_eq_ok {s fragment : List Char} {acc acc' : Schedule × Bool}
    (h : eventSetStep s acc fragment = .ok acc') :
    (∃ ts, parseClockSpan fragment = .ok ts ∧
        acc' = ({ acc.1 with clockSpans := acc.1.clockSpans ++ [ts] }, true)) ∨
      (∃ ws, parseWeekSpan fragment = .ok ws ∧
        acc' = ({ acc.1 with weekSpans := acc.1.weekSpans ++ [ws] }, acc.2)) := by
  unfold eventSetStep at h
  split at h
  · cases h
  · split at h
    · obtain ⟨ts, hts, h⟩ := bind_eq_ok.mp h
      simp only [pure, Except.pure, Except.ok.injEq] at h
      exact .inl ⟨ts, hts, h.symm⟩
    · split at h
      · obtain ⟨ws, hws, h⟩ := bind_eq_ok.mp h
        simp only [pure, Except.pure, Except.ok.injEq] at h
        exact .inr ⟨ws, hws, h.symm⟩
      · cases h

theorem foldlM_eventSetStep {s : List Char} :
    ∀ {fragments : List (List Char)} {acc r : Schedule × Bool},
      fragments.foldlM (eventSetStep s) acc = .ok r →
      (∀ ws ∈ acc.1.weekSpans, ws.Valid) → (∀ ts ∈ acc.1.clockSpans, ts.Valid) →
      (∀ ws ∈ r.1.weekSpans, ws.Valid) ∧ (∀ ts ∈ r.1.clockSpans, ts.Valid) ∧
        r.1.weekSpans.length + r.1.clockSpans.length =
          acc.1.weekSpans.length + acc.1.clockSpans.length + fragments.length
  | [], acc, r, h, hw, hc => by
    simp only [List.foldlM_nil, pure, Except.pure, Except.ok.injEq] at h
    subst h
    exact ⟨hw, hc, rfl⟩
  | fragment :: fragments, acc, r, h, hw, hc => by
    rw [List.foldlM_cons] at h
    obtain ⟨acc', hstep, hrest⟩ := bind_eq_ok.mp h
    rcases eventSetStep_eq_ok hstep with ⟨ts, hts, rfl⟩ | ⟨ws, hws, rfl⟩
    · obtain ⟨hw'', hc'', hlen⟩ := foldlM_eventSetStep hrest hw fun t ht => by
        rcases List.mem_append.mp ht with ht | ht
        · exact hc t ht
        · rw [List.mem_singleton.mp ht]
          exact parseClockSpan_valid hts
      refine ⟨hw'', hc'', ?_⟩
      simp only [List.length_append, List.length_cons, List.length_nil] at hlen ⊢
      omega
    · obtain ⟨hw'', hc'', hlen⟩ := foldlM_eventSetStep hrest (fun w hw' => by
        rcases List.mem_append.mp hw' with hw' | hw'
        · exact hw w hw'
        · rw [List.mem_singleton.mp hw']
          exact parseWeekSpan_valid hws) hc
      refine ⟨hw'', hc'', ?_⟩
      simp only [List.length_append, List.length_cons, List.length_nil] at hlen ⊢
      omega

theorem parseEventSet_valid {s : List Char} {sched : Schedule} (h : parseEventSet s = .ok sched) :
    sched.Valid := by
  unfold parseEventSet at h
  obtain ⟨⟨sched', flag⟩, hfold, h⟩ := bind_eq_ok.mp h
  simp only [pure, Except.pure, Except.ok.injEq] at h
  subst h
  have hfragments : (if (s.splitOn ',').length > 1 then s.splitOn ',' else [s]).length ≥ 1 := by
    split
    · omega
    · simp
  obtain ⟨hw, hc, hlen⟩ := foldlM_eventSetStep hfold (by simp) (by simp)
  refine ⟨hw, hc, ?_⟩
  by_contra hnil
  simp only [not_or, not_not] at hnil
  simp only [hnil.1, hnil.2, List.length_nil] at hlen
  omega

theorem WeekSpan.colon_not_mem_string {ws : WeekSpan} (hws : ws.Valid) : ':' ∉ ws.string :=
  WeekSpan.not_mem_string hws rfl (by decide)

theorem foldlM_weekSpans {s : List Char} : ∀ {l : List WeekSpan} {sched : Schedule},
    (∀ ws ∈ l, ws.Valid) →
    (l.map WeekSpan.string).foldlM (eventSetStep s) (sched, false) =
      .ok ({ sched with weekSpans := sched.weekSpans ++ l }, false)
  | [], sched, _ => by simp [pure, Except.pure]
  | ws :: l, sched, hl => by
    have hws := hl ws List.mem_cons_self
    have hstep : eventSetStep s (sched, false) ws.string =
        .ok ({ sched with weekSpans := sched.weekSpans ++ [ws] }, false) := by
      unfold eventSetStep
      rw [if_neg (WeekSpan.string_ne_nil ws hws), if_neg (WeekSpan.colon_not_mem_string hws)]
      simp [parseWeekSpan_string hws, bind, Except.bind, pure, Except.pure]
    rw [List.map_cons, List.foldlM_cons, hstep]
    simp only [bind, Except.bind]
    rw [foldlM_weekSpans fun w hw => hl w (List.mem_cons_of_mem _ hw)]
    simp

theorem foldlM_clockSpans {s : List Char} : ∀ {l : List ClockSpan} {sched : Schedule} {e : Bool},
    (∀ ts ∈ l, ts.Valid) → ∃ e',
      (l.map ClockSpan.string).foldlM (eventSetStep s) (sched, e) =
        .ok ({ sched with clockSpans := sched.clockSpans ++ l.map ClockSpan.normalized }, e')
  | [], sched, e, _ => ⟨e, by simp [pure, Except.pure]⟩
  | ts :: l, sched, e, hl => by
    have hts := hl ts List.mem_cons_self
    have hne : ts.string ≠ [] := List.ne_nil_of_mem (ClockSpan.colon_mem_string hts)
    have hstep : eventSetStep s (sched, e) ts.string =
        .ok ({ sched with clockSpans := sched.clockSpans ++ [ts.normalized] }, true) := by
      unfold eventSetStep
      rw [if_neg hne, if_pos (ClockSpan.colon_mem_string hts)]
      simp [parseClockSpan_string hts, bind, Except.bind, pure, Except.pure]
    obtain ⟨e', hrest⟩ := @foldlM_clockSpans s l
      { sched with clockSpans := sched.clockSpans ++ [ts.normalized] } true
      fun t ht => hl t (List.mem_cons_of_mem _ ht)
    refine ⟨e', ?_⟩
    rw [List.map_cons, List.foldlM_cons, hstep]
    simp only [bind, Except.bind]
    rw [hrest]
    simp

theorem Schedule.string_eq (sched : Schedule) :
    sched.string =
      [','].intercalate (sched.weekSpans.map WeekSpan.string ++ sched.clockSpans.map ClockSpan.string) := by
  unfold Schedule.string
  by_cases hw : sched.weekSpans = []
  · simp [hw]
  · by_cases hc : sched.clockSpans = []
    · simp [hc]
    · rw [if_pos ⟨hw, hc⟩, intercalate_append (by simpa using hw) (by simpa using hc)]

/-- `parseEventSet` reads a well-formed schedule back from its `String`, each clock span of no
length without its count and spread. -/
theorem parseEventSet_string {sched : Schedule} (h : sched.Valid) :
    parseEventSet sched.string = .ok sched.normalized := by
  have hcomma : ∀ part ∈ sched.weekSpans.map WeekSpan.string ++ sched.clockSpans.map ClockSpan.string,
      ',' ∉ part := by
    intro part hpart
    simp only [List.mem_append, List.mem_map] at hpart
    rcases hpart with ⟨ws, hws, rfl⟩ | ⟨ts, hts, rfl⟩
    · exact WeekSpan.not_mem_string (h.weekSpans ws hws) rfl (by decide)
    · intro hmem
      rcases ClockSpan.mem_string (h.clockSpans ts hts) hmem with hd | hd | hd | hd | hd <;>
        simp at hd
  have hparts : sched.weekSpans.map WeekSpan.string ++ sched.clockSpans.map ClockSpan.string ≠ [] := by
    rcases h.ne_nil with hne | hne <;> simp [hne]
  have hsplit := List.splitOn_intercalate ',' hcomma hparts
  have hfragments : (if (sched.string.splitOn ',').length > 1 then sched.string.splitOn ','
      else [sched.string]) = sched.weekSpans.map WeekSpan.string ++ sched.clockSpans.map ClockSpan.string := by
    split
    · rw [Schedule.string_eq sched, hsplit]
    · rename_i hle
      rw [← splitOn_of_length_le_one hle, Schedule.string_eq sched, hsplit]
  obtain ⟨e, hclock⟩ := @foldlM_clockSpans sched.string sched.clockSpans
    ⟨sched.weekSpans, []⟩ false h.clockSpans
  unfold parseEventSet
  simp only [hfragments, List.foldlM_append]
  rw [foldlM_weekSpans h.weekSpans]
  simp only [bind, Except.bind, List.nil_append] at hclock ⊢
  rw [hclock]
  rfl

theorem parseSchedule_valid {s : List Char} {scheds : List Schedule}
    (h : parseSchedule s = .ok scheds) : ∀ sched ∈ scheds, sched.Valid := by
  intro sched hsched
  obtain ⟨fragment, -, hfragment⟩ := exists_of_mapM_eq_ok h hsched
  exact parseEventSet_valid hfragment

end Snapd.Timeutil
