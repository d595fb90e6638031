import Snapd.Gadget.Volume

/-! What the bounds of `CheckValidStartOffset` mean. A placement of the structures of a volume
gives each an actual size between its `MinSize` and its `Size`, and a start: its offset if it
has one, where the structure before it ends otherwise, and never before that end. Placements
are in unbounded arithmetic; the code adds and subtracts in `uint64`. While none of the ends
`validateCrossVolumeStructure` adds up reaches `2^64`, the offsets `CheckValidStartOffset`
accepts for a structure of a loaded volume are exactly its starts in the placements. -/

namespace Snapd.Gadget

/-- Where the structures `vss` end, the one before them ending at `e`, when each has the size
`sz` and starts at its offset if it has one and where the one before it ends otherwise. -/
def endWith (sz : VolumeStructure → Nat) : Nat → List VolumeStructure → Nat
  | e, [] => e
  | e, vs :: rest => endWith sz ((vs.offset.map UInt64.toNat).getD e + sz vs) rest

/-- Each structure with an offset starts no earlier than the structures before it end at their
full sizes, the one before them ending at `e`: the overlap check of
`validateCrossVolumeStructure` in unbounded arithmetic. -/
def FitsFrom : Nat → List VolumeStructure → Prop
  | _, [] => True
  | e, vs :: rest => (∀ off ∈ vs.offset, e ≤ off.toNat) ∧
      FitsFrom ((vs.offset.map UInt64.toNat).getD e + vs.size.toNat) rest

/-- None of the ends `validateCrossVolumeStructure` adds up reaches `2^64`, the structures
before `vss` ending at `e`. -/
def NoWrap : Nat → List VolumeStructure → Prop
  | e, [] => e < 2 ^ 64
  | e, vs :: rest => e < 2 ^ 64 ∧
      NoWrap ((vs.offset.map UInt64.toNat).getD e + vs.size.toNat) rest

instance NoWrap.decidable : (e : Nat) → (vss : List VolumeStructure) → Decidable (NoWrap e vss)
  | e, [] => inferInstanceAs (Decidable (e < 2 ^ 64))
  | e, vs :: rest =>
    have := NoWrap.decidable ((vs.offset.map UInt64.toNat).getD e + vs.size.toNat) rest
    inferInstanceAs (Decidable (e < 2 ^ 64 ∧ _))

/-- `placed` gives each of the structures `vss` a start and an actual size, the structure
before them ending at `prevEnd` (`none` before the first structure of the volume): the size
lies between `MinSize` and `Size`; a structure with an offset starts at it, no earlier than
where the one before it ends, and one without starts where the one before it ends. -/
def Realises : Option Nat → List VolumeStructure → List (Nat × Nat) → Prop
  | _, [], [] => True
  | prevEnd, vs :: rest, (st, a) :: placed =>
    (vs.minSize.toNat ≤ a ∧ a ≤ vs.size.toNat) ∧
      (match vs.offset with
        | some off => st = off.toNat ∧ ∀ e ∈ prevEnd, e ≤ st
        | none => prevEnd = some st) ∧
      Realises (some (st + a)) rest placed
  | _, _, _ => False

/-- The start a placement gives the structure at `idx`. -/
def startAt (placed : List (Nat × Nat)) (idx : Nat) : Option Nat :=
  placed[idx]?.map Prod.fst

/-- `o` lies between the earliest and the latest start of the structure at `idx`, the
structures before `vss` ending between `lo` and `hi`. -/
def StartBetween (lo hi : Nat) (vss : List VolumeStructure) (idx o : Nat) : Prop :=
  ∃ vs, vss[idx]? = some vs ∧
    match vs.offset with
    | some off => o = off.toNat
    | none => endWith (·.minSize.toNat) lo (vss.take idx) ≤ o ∧
        o ≤ endWith (·.size.toNat) hi (vss.take idx)

theorem endWith_append_singleton (sz : VolumeStructure → Nat) (e : Nat)
    (vss : List VolumeStructure) (vs : VolumeStructure) :
    endWith sz e (vss ++ [vs]) = (vs.offset.map UInt64.toNat).getD (endWith sz e vss) + sz vs := by
  induction vss generalizing e with
  | nil => rfl
  | cons w rest ih => exact ih _

theorem endWith_mono {sz₁ sz₂ : VolumeStructure → Nat} {vss : List VolumeStructure}
    (hsz : ∀ vs ∈ vss, sz₁ vs ≤ sz₂ vs) {e₁ e₂ : Nat} (he : e₁ ≤ e₂) :
    endWith sz₁ e₁ vss ≤ endWith sz₂ e₂ vss := by
  induction vss generalizing e₁ e₂ with
  | nil => exact he
  | cons vs rest ih =>
    apply ih (fun w hw => hsz w (List.mem_cons_of_mem _ hw))
    have := hsz vs List.mem_cons_self
    cases vs.offset <;> simp <;> omega

theorem startBetween_cons_succ (lo hi : Nat) (vs : VolumeStructure) (rest : List VolumeStructure)
    (j o : Nat) :
    StartBetween lo hi (vs :: rest) (j + 1) o ↔
      StartBetween ((vs.offset.map UInt64.toNat).getD lo + vs.minSize.toNat)
        ((vs.offset.map UInt64.toNat).getD hi + vs.size.toNat) rest j o := by
  simp only [StartBetween, List.getElem?_cons_succ, List.take_succ_cons, endWith]

section Placements

variable {vss : List VolumeStructure}

theorem realises_cons_some {e : Nat} {vs : VolumeStructure} {rest : List VolumeStructure}
    {st a : Nat} {placed : List (Nat × Nat)} :
    Realises (some e) (vs :: rest) ((st, a) :: placed) ↔
      (vs.minSize.toNat ≤ a ∧ a ≤ vs.size.toNat) ∧
        st = (vs.offset.map UInt64.toNat).getD e ∧ e ≤ st ∧
        Realises (some (st + a)) rest placed := by
  cases h : vs.offset with
  | some off => simp [Realises, h, and_assoc]
  | none =>
    simp only [Realises, h, Option.some.injEq, Option.map_none, Option.getD_none]
    constructor
    · rintro ⟨hsz, rfl, hrest⟩
      exact ⟨hsz, rfl, le_rfl, hrest⟩
    · rintro ⟨hsz, rfl, -, hrest⟩
      exact ⟨hsz, rfl, hrest⟩

theorem realises_none_iff {vs : VolumeStructure} {rest : List VolumeStructure}
    (hoff : vs.offset.isSome) (placed : List (Nat × Nat)) :
    Realises none (vs :: rest) placed ↔ Realises (some 0) (vs :: rest) placed := by
  obtain ⟨off, h⟩ := Option.isSome_iff_exists.mp hoff
  rcases placed with _ | ⟨⟨st, a⟩, placed⟩
  · simp [Realises]
  · simp [Realises, h]

/-- With every structure at most its full size, structures that fit after an end `hi` have
placements after any earlier end. -/
theorem exists_realises (hmin : ∀ vs ∈ vss, vs.minSize.toNat ≤ vs.size.toNat) {e hi : Nat}
    (hfits : FitsFrom hi vss) (he : e ≤ hi) : ∃ placed, Realises (some e) vss placed := by
  induction vss generalizing e hi with
  | nil => exact ⟨[], trivial⟩
  | cons vs rest ih =>
    obtain ⟨hoff, hrest⟩ := hfits
    have hvs := hmin vs List.mem_cons_self
    -- every structure takes its minimum size
    have hstart : e ≤ (vs.offset.map UInt64.toNat).getD e := by
      cases h : vs.offset with
      | some off => simpa [h] using le_trans he (hoff off h)
      | none => simp
    obtain ⟨placed, hp⟩ := ih (fun w hw => hmin w (List.mem_cons_of_mem _ hw)) hrest
      (e := (vs.offset.map UInt64.toNat).getD e + vs.minSize.toNat)
      (by cases vs.offset <;> simp <;> omega)
    exact ⟨_ :: placed, realises_cons_some.mpr ⟨⟨le_rfl, hvs⟩, rfl, hstart, hp⟩⟩

/-- One structure further: the ends of the placements of one structure, after an end between
`lo` and `hi`, are the numbers between its earliest and its latest end. -/
theorem exists_realises_cons_succ_iff {vs : VolumeStructure} {rest : List VolumeStructure}
    (hvs : vs.minSize.toNat ≤ vs.size.toNat) {lo hi : Nat} (hlo : lo ≤ hi)
    (hoff : ∀ off ∈ vs.offset, hi ≤ off.toNat) (j o : Nat) :
    (∃ e, lo ≤ e ∧ e ≤ hi ∧ ∃ placed, Realises (some e) (vs :: rest) placed ∧
        startAt placed (j + 1) = some o) ↔
      ∃ e, (vs.offset.map UInt64.toNat).getD lo + vs.minSize.toNat ≤ e ∧
        e ≤ (vs.offset.map UInt64.toNat).getD hi + vs.size.toNat ∧
        ∃ placed, Realises (some e) rest placed ∧ startAt placed j = some o := by
  constructor
  · rintro ⟨e, hle, hge, _ | ⟨⟨st, a⟩, placed⟩, hr, hst⟩
    · simp [startAt] at hst
    obtain ⟨⟨hmin, hmax⟩, rfl, -, hrest⟩ := realises_cons_some.mp hr
    refine ⟨_, ?_, ?_, placed, hrest, hst⟩ <;> cases vs.offset <;> simp <;> omega
  · rintro ⟨e', hle, hge, placed, hrest, hst⟩
    cases h : vs.offset with
    | some off =>
      -- the structure starts at its offset and takes what is left up to `e'`
      simp only [h, Option.map_some, Option.getD_some] at hle hge
      have hhi := hoff off h
      refine ⟨lo, le_rfl, hlo, (off.toNat, e' - off.toNat) :: placed, ?_, hst⟩
      refine realises_cons_some.mpr ⟨⟨by omega, by omega⟩, by simp [h], by omega, ?_⟩
      rwa [show off.toNat + (e' - off.toNat) = e' by omega]
    | none =>
      -- it takes its minimum size, or more where starting at `hi` would not reach `e'`
      simp only [h, Option.map_none, Option.getD_none] at hle hge
      refine ⟨e' - max vs.minSize.toNat (e' - hi), by omega, by omega,
        (e' - max vs.minSize.toNat (e' - hi), max vs.minSize.toNat (e' - hi)) :: placed, ?_, hst⟩
      refine realises_cons_some.mpr ⟨⟨by omega, by omega⟩, by simp [h], le_rfl, ?_⟩
      rwa [show e' - max vs.minSize.toNat (e' - hi) + max vs.minSize.toNat (e' - hi) = e' by omega]

/-- The starts of a structure in the placements after an end between `lo` and `hi` are the
numbers between its earliest and its latest start. The induction is on the structures; a
structure further on sees the ends of the one before it as its new interval. -/
theorem exists_realises_start_iff_between (hmin : ∀ vs ∈ vss, vs.minSize.toNat ≤ vs.size.toNat)
    {lo hi : Nat} (hlo : lo ≤ hi) (hfits : FitsFrom hi vss) (idx o : Nat) :
    (∃ e, lo ≤ e ∧ e ≤ hi ∧ ∃ placed, Realises (some e) vss placed ∧ startAt placed idx = some o) ↔
      StartBetween lo hi vss idx o := by
  induction vss generalizing lo hi idx with
  | nil =>
    constructor
    · rintro ⟨e, -, -, _ | _, hr, hst⟩ <;> simp [startAt, Realises] at hr hst
    · rintro ⟨vs, hvs, -⟩
      simp at hvs
  | cons vs rest ih =>
    have hvs := hmin vs List.mem_cons_self
    have hrest : ∀ w ∈ rest, w.minSize.toNat ≤ w.size.toNat :=
      fun w hw => hmin w (List.mem_cons_of_mem _ hw)
    obtain ⟨hoff, hfits⟩ := hfits
    cases idx with
    | zero =>
      -- the structure itself starts at its offset, or at the end before it
      cases h : vs.offset with
      | some off =>
        have hhi := hoff off h
        simp only [StartBetween, List.getElem?_cons_zero, Option.some.injEq, exists_eq_left', h]
        constructor
        · rintro ⟨e, -, -, _ | ⟨⟨st, a⟩, placed⟩, hr, hst⟩
          · simp [startAt] at hst
          obtain ⟨-, hst', -⟩ := realises_cons_some.mp hr
          simp only [startAt, List.getElem?_cons_zero, Option.map_some, Option.some.injEq] at hst
          simpa [h, hst] using hst'
        · rintro rfl
          obtain ⟨placed, hp⟩ := exists_realises hrest (e := off.toNat + vs.minSize.toNat)
            (by simpa [h] using hfits) (by omega)
          exact ⟨lo, le_rfl, hlo, (off.toNat, vs.minSize.toNat) :: placed,
            realises_cons_some.mpr ⟨⟨le_rfl, hvs⟩, by simp [h], by omega, hp⟩, rfl⟩
      | none =>
        simp only [StartBetween, List.getElem?_cons_zero, Option.some.injEq, exists_eq_left', h,
          List.take_zero, endWith]
        constructor
        · rintro ⟨e, hle, hge, _ | ⟨⟨st, a⟩, placed⟩, hr, hst⟩
          · simp [startAt] at hst
          obtain ⟨-, hst', -⟩ := realises_cons_some.mp hr
          simp only [startAt, List.getElem?_cons_zero, Option.map_some, Option.some.injEq] at hst
          simp only [h, Option.map_none, Option.getD_none] at hst'
          omega
        · rintro ⟨hle, hge⟩
          obtain ⟨placed, hp⟩ := exists_realises hrest (e := o + vs.minSize.toNat)
            (by simpa [h] using hfits) (by omega)
          exact ⟨o, hle, hge, (o, vs.minSize.toNat) :: placed,
            realises_cons_some.mpr ⟨⟨le_rfl, hvs⟩, by simp [h], le_rfl, hp⟩, rfl⟩
    | succ j =>
      rw [exists_realises_cons_succ_iff hvs hlo hoff, startBetween_cons_succ]
      exact ih hrest (by cases h : vs.offset <;> simp <;> omega) hfits j

/-- The starts of a structure in the placements of a volume whose first structure has an
offset are the numbers between its earliest and its latest start. -/
theorem exists_realises_start_iff (hhead : ∀ vs ∈ vss.head?, vs.offset.isSome)
    (hmin : ∀ vs ∈ vss, vs.minSize.toNat ≤ vs.size.toNat) (hfits : FitsFrom 0 vss) (idx o : Nat) :
    (∃ placed, Realises none vss placed ∧ startAt placed idx = some o) ↔
      StartBetween 0 0 vss idx o := by
  rw [← exists_realises_start_iff_between hmin le_rfl hfits]
  have hzero : (∃ e, 0 ≤ e ∧ e ≤ 0 ∧ ∃ placed, Realises (some e) vss placed ∧
      startAt placed idx = some o) ↔
      ∃ placed, Realises (some 0) vss placed ∧ startAt placed idx = some o := by
    constructor
    · rintro ⟨e, -, he, h⟩
      rwa [Nat.le_zero.mp he] at h
    · exact fun h => ⟨0, le_rfl, le_rfl, h⟩
  rw [hzero]
  rcases vss with _ | ⟨vs, rest⟩
  · constructor <;> rintro ⟨_ | _, hr, hst⟩ <;> simp [Realises, startAt] at hr hst
  · simp only [realises_none_iff (hhead vs rfl)]

end Placements

theorem toNat_add_of_lt {a b : UInt64} (h : a.toNat + b.toNat < 2 ^ 64) :
    (a + b).toNat = a.toNat + b.toNat := by
  rw [UInt64.toNat_add, Nat.mod_eq_of_lt h]

theorem NoWrap.lt {e : Nat} {vss : List VolumeStructure} (h : NoWrap e vss) : e < 2 ^ 64 := by
  cases vss with
  | nil => exact h
  | cons _ _ => exact h.1

theorem endWith_take_lt {e : Nat} {vss : List VolumeStructure} (h : NoWrap e vss) (j : Nat) :
    endWith (·.size.toNat) e (vss.take j) < 2 ^ 64 := by
  induction vss generalizing e j with
  | nil => simpa [endWith] using h.lt
  | cons vs rest ih =>
    cases j with
    | zero => exact h.1
    | succ j => exact ih h.2 j

theorem fitsFrom_drop {e : Nat} {vss : List VolumeStructure} (h : FitsFrom e vss) (j : Nat) :
    FitsFrom (endWith (·.size.toNat) e (vss.take j)) (vss.drop j) := by
  induction vss generalizing e j with
  | nil => simp [FitsFrom]
  | cons vs rest ih =>
    cases j with
    | zero => exact h
    | succ j => exact ih h.2 j

theorem noWrap_drop {e : Nat} {vss : List VolumeStructure} (h : NoWrap e vss) (j : Nat) :
    NoWrap (endWith (·.size.toNat) e (vss.take j)) (vss.drop j) := by
  induction vss generalizing e j with
  | nil => simpa [endWith] using h
  | cons vs rest ih =>
    cases j with
    | zero => exact h
    | succ j => exact ih h.2 j

/-- Without wrap-around, the backward loops of the bounds add the sizes `sz` from the last
offset before the structure: where the structures before it end with those sizes. -/
theorem sumBackToOffset_toNat (sz : VolumeStructure → UInt64) {vss : List VolumeStructure}
    (hfix : ∃ vs ∈ vss, vs.offset.isSome) (acc : UInt64) (e : Nat)
    (hb : endWith (fun vs => (sz vs).toNat) e vss.reverse + acc.toNat < 2 ^ 64) :
    (sumBackToOffset sz vss acc).toNat =
      endWith (fun vs => (sz vs).toNat) e vss.reverse + acc.toNat := by
  induction vss generalizing acc with
  | nil => simp at hfix
  | cons vs rest ih =>
    rw [List.reverse_cons, endWith_append_singleton] at hb ⊢
    cases hoff : vs.offset with
    | some off =>
      simp only [hoff, Option.map_some, Option.getD_some] at hb ⊢
      have hin : (acc + sz vs).toNat = acc.toNat + (sz vs).toNat := toNat_add_of_lt (by omega)
      simp only [sumBackToOffset, hoff]
      rw [toNat_add_of_lt (by rw [hin]; omega), hin]
      omega
    | none =>
      simp only [hoff, Option.map_none, Option.getD_none] at hb ⊢
      have hfix' : ∃ w ∈ rest, w.offset.isSome := by
        obtain ⟨w, hw, hws⟩ := hfix
        rcases List.mem_cons.mp hw with rfl | hw
        · simp [hoff] at hws
        · exact ⟨w, hw, hws⟩
      have hacc : (acc + sz vs).toNat = acc.toNat + (sz vs).toNat := toNat_add_of_lt (by omega)
      simp only [sumBackToOffset, hoff]
      rw [ih hfix' _ (by rw [hacc]; omega), hacc]
      omega

/-- Without partial sizes, the backward loop of `maxStructureOffset` is that of
`minStructureOffset` with `Size` for `MinSize`. -/
theorem maxStructureOffsetBackLoop_eq {vss : List VolumeStructure}
    (hpart : ∀ vs ∈ vss, vs.hasPartialSize = false) (acc : UInt64) :
    maxStructureOffsetBackLoop vss acc = sumBackToOffset (·.size) vss acc := by
  induction vss generalizing acc with
  | nil => rfl
  | cons vs rest ih =>
    simp only [maxStructureOffsetBackLoop, sumBackToOffset, hpart vs List.mem_cons_self,
      Bool.false_eq_true, if_false]
    cases vs.offset with
    | some off => rfl
    | none => exact ih (fun w hw => hpart w (List.mem_cons_of_mem _ hw)) _

/-- The forward restriction of `maxStructureOffset` never binds on structures that fit: the
next offset is at least the full sizes up to it, which are at least the minimum sizes it
subtracts. -/
theorem le_maxStructureOffsetFwLoop {vss : List VolumeStructure}
    (hmin : ∀ vs ∈ vss, vs.minSize.toNat ≤ vs.size.toNat) {hi e : Nat} {downSz : UInt64}
    (hfits : FitsFrom hi vss) (hwrap : NoWrap hi vss) (hdown : e + downSz.toNat ≤ hi) :
    e ≤ (maxStructureOffsetFwLoop vss downSz).toNat := by
  induction vss generalizing hi downSz with
  | nil =>
    have : hi < 2 ^ 64 := hwrap
    simp only [maxStructureOffsetFwLoop, unboundedStructureOffset]
    simp
    omega
  | cons vs rest ih =>
    have hvs := hmin vs List.mem_cons_self
    cases hoff : vs.offset with
    | some off =>
      have hhi : hi ≤ off.toNat := hfits.1 off hoff
      simp only [maxStructureOffsetFwLoop, hoff]
      rw [UInt64.toNat_sub_of_le _ _ (UInt64.le_iff_toNat_le.mpr (by omega))]
      omega
    | none =>
      obtain ⟨-, hfits'⟩ := hfits
      obtain ⟨-, hwrap'⟩ := hwrap
      simp only [hoff, Option.map_none, Option.getD_none] at hfits' hwrap'
      have hlt := hwrap'.lt
      simp only [maxStructureOffsetFwLoop, hoff]
      exact ih (fun w hw => hmin w (List.mem_cons_of_mem _ hw)) hfits' hwrap'
        (by rw [toNat_add_of_lt (by omega)]; omega)

/-- The offsets `CheckValidStartOffset` accepts for a structure are the numbers between its
earliest and its latest start, when the first structure has an offset, every structure is at
least its minimum size and none has a partial size, and the structures fit without
wrap-around. -/
theorem checkValidStartOffset_eq_none_iff {vss : List VolumeStructure}
    (hhead : ∀ vs ∈ vss.head?, vs.offset.isSome)
    (hmin : ∀ vs ∈ vss, vs.minSize.toNat ≤ vs.size.toNat)
    (hpart : ∀ vs ∈ vss, vs.hasPartialSize = false) (hfits : FitsFrom 0 vss)
    (hwrap : NoWrap 0 vss) (o : UInt64) (idx : Nat) :
    checkValidStartOffset o vss idx = some none ↔ StartBetween 0 0 vss idx o.toNat := by
  cases h : vss[idx]? with
  | none => simp [checkValidStartOffset, minStructureOffset, h, StartBetween]
  | some vs =>
    cases hoff : vs.offset with
    | some off =>
      simp [checkValidStartOffset, minStructureOffset, maxStructureOffset, h, hoff, StartBetween,
        UInt64.le_iff_toNat_le]
      omega
    | none =>
      have hfix : ∃ w ∈ (vss.take idx).reverse, w.offset.isSome := by
        rcases vss with _ | ⟨w, rest⟩
        · simp at h
        · cases idx with
          | zero =>
            simp only [List.getElem?_cons_zero, Option.some.injEq] at h
            subst h
            simp [hoff] at hhead
          | succ k => exact ⟨w, by simp, hhead w rfl⟩
      have hsize := endWith_take_lt hwrap idx
      have hminle : endWith (·.minSize.toNat) 0 (vss.take idx) ≤
          endWith (·.size.toNat) 0 (vss.take idx) :=
        endWith_mono (fun w hw => hmin w (List.mem_of_mem_take hw)) le_rfl
      have hlow : (sumBackToOffset (·.minSize) (vss.take idx).reverse 0).toNat =
          endWith (·.minSize.toNat) 0 (vss.take idx) := by
        simpa using sumBackToOffset_toNat (·.minSize) hfix 0 0 (by simp; omega)
      have hhigh : (maxStructureOffsetBackLoop (vss.take idx).reverse 0).toNat =
          endWith (·.size.toNat) 0 (vss.take idx) := by
        rw [maxStructureOffsetBackLoop_eq
          (fun w hw => hpart w (List.mem_of_mem_take (List.mem_reverse.mp hw)))]
        simpa using sumBackToOffset_toNat (·.size) hfix 0 0 (by simp; omega)
      have hfw : endWith (·.size.toNat) 0 (vss.take idx) ≤
          (maxStructureOffsetFwLoop (vss.drop idx) 0).toNat :=
        le_maxStructureOffsetFwLoop (fun w hw => hmin w (List.mem_of_mem_drop hw))
          (fitsFrom_drop hfits idx) (noWrap_drop hwrap idx) (by simp)
      have hnotlt : ¬ maxStructureOffsetFwLoop (vss.drop idx) 0 <
          maxStructureOffsetBackLoop (vss.take idx).reverse 0 := by
        rw [UInt64.lt_iff_toNat_lt]
        omega
      simp only [checkValidStartOffset, minStructureOffset, maxStructureOffset, h, hoff,
        Option.map_some, hnotlt, if_false, StartBetween, Option.some.injEq, exists_eq_left']
      simp [UInt64.le_iff_toNat_le, hlow, hhigh]

theorem fitsFrom_of_crossVolumeStructureLoop {vss : List VolumeStructure}
    {previousEnd : UInt64} {prevName : List Char}
    (h : crossVolumeStructureLoop previousEnd prevName vss = .ok ())
    (hwrap : NoWrap previousEnd.toNat vss) : FitsFrom previousEnd.toNat vss := by
  induction vss generalizing previousEnd prevName with
  | nil => trivial
  | cons ps rest ih =>
    obtain ⟨-, hnext⟩ := hwrap
    simp only [crossVolumeStructureLoop] at h
    split at h
    · cases h
    · cases hoff : ps.offset with
      | some off =>
        simp only [hoff] at h hnext
        split at h
        · cases h
        · rename_i hlt
          have hsum : (off + ps.size).toNat = off.toNat + ps.size.toNat :=
            toNat_add_of_lt (by simpa using hnext.lt)
          refine ⟨fun o ho => ?_, ?_⟩
          · obtain rfl : off = o := by simpa [hoff] using ho
            rw [UInt64.lt_iff_toNat_lt] at hlt
            omega
          · simpa [hoff, hsum] using ih h (by simpa [hsum] using hnext)
      | none =>
        simp only [hoff] at h hnext
        have hsum : (previousEnd + ps.size).toNat = previousEnd.toNat + ps.size.toNat :=
          toNat_add_of_lt (by simpa using hnext.lt)
        refine ⟨fun o ho => (by simp [hoff] at ho), ?_⟩
        simpa [hoff, hsum] using ih h (by simpa [hsum] using hnext)

/-- For a volume that is not eMMC and has no partial size, loaded as `InfoFromGadgetYaml` loads
it (`setImplicitForVolume`, `orderStructuresByOffset`, then `validateVolume`), and in which none
of the ends `validateCrossVolumeStructure` adds up reaches `2^64`, `CheckValidStartOffset`
accepts an offset for a structure exactly when some placement of the volume starts the
structure there. -/
theorem checkValidStartOffset_exact {vol vol' : Volume} {vss : List VolumeStructure}
    (hemmc : vol.schema ≠ .emmc) (hsize : PartialProperty.size ∉ vol.partialProperties)
    (himplicit : setImplicitForVolume vol = .ok vol')
    (horder : orderStructuresByOffset vol'.structures = some vss)
    (hvalid : validateVolume { vol' with structures := vss } = .ok ())
    (hwrap : NoWrap 0 vss) (o : UInt64) (idx : Nat) :
    checkValidStartOffset o vss idx = some none ↔
      ∃ placed, Realises none vss placed ∧ startAt placed idx = some o.toNat := by
  obtain ⟨hemmc', v, hschema, hpartial, hstructs⟩ := setImplicitForVolume_eq_ok hemmc himplicit
  -- the first structure has an offset: the order keeps a block's first structure first
  obtain ⟨hhead, hmem⟩ := orderStructuresByOffset_eq_some horder
  have hpart : ∀ vs ∈ vss, vs.hasPartialSize = false := by
    intro vs hvs
    have := enclosingVolumePartial_of_setImplicitForStructures hstructs vs (hmem vs hvs)
    simp [VolumeStructure.hasPartialSize, this, hpartial, hsize]
  obtain ⟨hstructures, hcross⟩ := validateVolume_eq_ok hvalid
  have hloaded : ({ vol' with structures := vss } : Volume).schema ≠ .emmc := hemmc'
  have hmin : ∀ vs ∈ vss, vs.minSize.toNat ≤ vs.size.toNat := fun vs hvs =>
    UInt64.le_iff_toNat_le.mp
      (minSize_le_size_of_validateStructures hloaded hstructures vs hvs (hpart vs hvs))
  have hfits : FitsFrom 0 vss := by
    simp only [validateCrossVolumeStructure, hemmc', if_false] at hcross
    exact fitsFrom_of_crossVolumeStructureLoop hcross hwrap
  rw [checkValidStartOffset_eq_none_iff hhead hmin hpart hfits hwrap,
    exists_realises_start_iff hhead hmin hfits]

/-- A volume of a structure that may shrink from `2 MiB` to `1 MiB`, one of `1 MiB` after it,
and one at `8 MiB`, as `gadget.yaml` gives it and as it is loaded. -/
def shrinkingVolume : Volume :=
  ⟨.none, [], [⟨"a".toList, none, 1048576, 2097152, "bare".toList, .none, []⟩,
    ⟨"b".toList, none, 0, 1048576, "bare".toList, .none, []⟩,
    ⟨"c".toList, some 8388608, 0, 1048576, "bare".toList, .none, []⟩]⟩

def shrinkingVolumeLoaded : List VolumeStructure :=
  [⟨"a".toList, some 1048576, 1048576, 2097152, "bare".toList, .none, []⟩,
    ⟨"b".toList, none, 1048576, 1048576, "bare".toList, .none, []⟩,
    ⟨"c".toList, some 8388608, 1048576, 1048576, "bare".toList, .none, []⟩]

theorem checkValidStartOffset_exact_after_shrinking :
    shrinkingVolume.schema ≠ .emmc ∧ PartialProperty.size ∉ shrinkingVolume.partialProperties ∧
      setImplicitForVolume shrinkingVolume = .ok ⟨.gpt, [], shrinkingVolumeLoaded⟩ ∧
      orderStructuresByOffset shrinkingVolumeLoaded = some shrinkingVolumeLoaded ∧
      validateVolume ⟨.gpt, [], shrinkingVolumeLoaded⟩ = .ok () ∧
      NoWrap 0 shrinkingVolumeLoaded ∧
      (checkValidStartOffset 2621440 shrinkingVolumeLoaded 1 = some none ↔
        ∃ placed, Realises none shrinkingVolumeLoaded placed ∧
          startAt placed 1 = some (2621440 : UInt64).toNat) :=
  ⟨by decide, by decide, by decide, by decide, by decide, by decide,
    @checkValidStartOffset_exact shrinkingVolume ⟨.gpt, [], shrinkingVolumeLoaded⟩
      shrinkingVolumeLoaded (by decide) (by decide) (by decide) (by decide) (by decide) (by decide)
      2621440 1⟩

/-- Two structures of `2^63 - 1` bytes, the first of which may shrink to one byte and is set to
start at `1 MiB`, then one with the offset `1 MiB`. -/
def wrappingVolume : Volume :=
  ⟨.none, [], [⟨"a".toList, none, 1, 9223372036854775807, "bare".toList, .none, []⟩,
    ⟨"b".toList, none, 0, 9223372036854775807, "bare".toList, .none, []⟩,
    ⟨"c".toList, some 1048576, 0, 1048576, "bare".toList, .none, []⟩]⟩

def wrappingVolumeLoaded : List VolumeStructure :=
  [⟨"a".toList, some 1048576, 1, 9223372036854775807, "bare".toList, .none, []⟩,
    ⟨"b".toList, none, 9223372036854775807, 9223372036854775807, "bare".toList, .none, []⟩,
    ⟨"c".toList, some 1048576, 1048576, 1048576, "bare".toList, .none, []⟩]

/-- The end `validateCrossVolumeStructure` adds up for the second structure wraps around to
`1 MiB - 2`, so the volume loads and `CheckValidStartOffset` accepts `1 MiB` for the first
structure; yet no placement exists, as the second structure cannot end by `1 MiB`. -/
theorem checkValidStartOffset_accepts_unplaceable_volume :
    wrappingVolume.schema ≠ .emmc ∧ PartialProperty.size ∉ wrappingVolume.partialProperties ∧
      setImplicitForVolume wrappingVolume = .ok ⟨.gpt, [], wrappingVolumeLoaded⟩ ∧
      orderStructuresByOffset wrappingVolumeLoaded = some wrappingVolumeLoaded ∧
      validateVolume ⟨.gpt, [], wrappingVolumeLoaded⟩ = .ok () ∧
      checkValidStartOffset nonMBRStartOffset wrappingVolumeLoaded 0 = some none ∧
      ¬ NoWrap 0 wrappingVolumeLoaded ∧
      ¬ ∃ placed, Realises none wrappingVolumeLoaded placed := by
  refine ⟨by decide, by decide, by decide, by decide, by decide, by decide, by decide, ?_⟩
  rintro ⟨placed, h⟩
  rcases placed with _ | ⟨⟨st0, a0⟩, _ | ⟨⟨st1, a1⟩, _ | ⟨⟨st2, a2⟩, placed⟩⟩⟩ <;>
    simp [Realises, wrappingVolumeLoaded] at h
  omega

end Snapd.Gadget
