import Snapd.Lib.GoText
import Mathlib.Data.List.Sort

/-! The volumes of `gadget.yaml` (`gadget/gadget.go`) as far as the start offsets of their
structures go: the implicit values `setImplicitForVolume` fills in, the order
`orderStructuresByOffset` puts the structures in, the checks of `validateVolume` on sizes,
names and overlaps, and the bounds `CheckValidStartOffset` puts on where a structure may start.
`quantity.Offset` and `quantity.Size` are both `uint64`, so both are `UInt64` here. A Go
function that indexes out of range or dereferences a nil pointer panics; its model returns
`none` there. -/

namespace Snapd.Gadget

/-- Go's `==` on strings, through which membership in a list of strings is decided. -/
local instance lawfulBEqString : LawfulBEq (List Char) := inferInstance

open GoText

/-- The roles the modelled functions tell apart: none (`""`), `mbr`, `system-boot-state`, and
any other. -/
inductive Role where
  | none
  | mbr
  | systemBootState
  | other
  deriving DecidableEq, Repr

/-- `Volume.Schema`, `none` standing for `""`. -/
inductive Schema where
  | none
  | mbr
  | gpt
  | emmc
  deriving DecidableEq, Repr

/-- The text of a schema in `gadget.yaml`. -/
def Schema.string : Schema → List Char
  | .none => []
  | .mbr => "mbr".toList
  | .gpt => "gpt".toList
  | .emmc => "emmc".toList

/-- `PartialProperty`: `schema`, `structure`, `filesystem` and `size`. -/
inductive PartialProperty where
  | schema
  | structures
  | filesystem
  | size
  deriving DecidableEq, Repr

/-- `VolumeStructure`, with the fields the modelled functions read. Of `EnclosingVolume` only
its partial properties are read. -/
structure VolumeStructure where
  name : List Char
  offset : Option UInt64
  minSize : UInt64
  size : UInt64
  type : List Char
  role : Role
  enclosingVolumePartial : List PartialProperty
  deriving DecidableEq, Repr

/-- `Volume`, with its schema, its partial properties and its structures. -/
structure Volume where
  schema : Schema
  partialProperties : List PartialProperty
  structures : List VolumeStructure
  deriving DecidableEq, Repr

def Volume.hasPartial (v : Volume) (pp : PartialProperty) : Bool :=
  v.partialProperties.contains pp

/-- `VolumeStructure.hasPartialSize`: the volume leaves sizes open and this one has none. -/
def VolumeStructure.hasPartialSize (vs : VolumeStructure) : Bool :=
  vs.enclosingVolumePartial.contains .size && vs.size == 0

def VolumeStructure.isFixedSize (vs : VolumeStructure) : Bool :=
  !vs.hasPartialSize && vs.size == vs.minSize

def offsetMiB : UInt64 := 1 <<< (20 : UInt64)

def nonMBRStartOffset : UInt64 := 1 * offsetMiB

/-- `UnboundedStructureOffset`, `math.MaxUint64`. -/
def unboundedStructureOffset : UInt64 := 18446744073709551615

/-- `setVolumeStructureOffset`: a structure without an offset starts at `startPtr`, moved up
to `NonMBRStartOffset` unless it is the MBR; it ends at its offset plus its size when both are
known. -/
def setVolumeStructureOffset (vs : VolumeStructure) (startPtr : Option UInt64) :
    VolumeStructure × Option UInt64 :=
  let vs := match vs.offset, startPtr with
    | none, some start =>
      { vs with offset := some (if vs.role ≠ .mbr ∧ start < nonMBRStartOffset then
          nonMBRStartOffset else start) }
    | _, _ => vs
  (vs, match vs.offset with
    | some off => if vs.isFixedSize then some (off + vs.size) else none
    | none => none)

/-- The role `setImplicitForVolumeStructure` gives a structure: `mbr` to one of type `mbr`
with no role. The filesystem labels it sets are not read here. -/
def setImplicitForVolumeStructure (vs : VolumeStructure) : VolumeStructure :=
  if vs.role = .none ∧ vs.type = "mbr".toList then { vs with role := .mbr } else vs

/-- The loop of `setImplicitForVolume` over the structures from the `i`-th on, the one before
them ending at `previousEnd` when that is known. -/
def setImplicitForStructures (vol : Volume) :
    Nat → Option UInt64 → List VolumeStructure → Except String (List VolumeStructure)
  | _, _, [] => .ok []
  | i, previousEnd, vs :: rest =>
    let vs := setImplicitForVolumeStructure
      { vs with minSize := if vs.minSize = 0 then vs.size else vs.minSize
                enclosingVolumePartial := vol.partialProperties }
    if vs.role = .systemBootState ∧ vs.offset = none then
      .error ("invalid structure #" ++ String.ofList (itoa i) ++ " (" ++ quote vs.name ++
        "): invalid role \"system-boot-state\": system-boot-state role requires explicit offset")
    else match vol.schema with
      | .emmc =>
        (setImplicitForStructures vol (i + 1) previousEnd rest).map
          ({ vs with offset := some 0 } :: ·)
      | _ =>
        let (vs, previousEnd) := setVolumeStructureOffset vs previousEnd
        (setImplicitForStructures vol (i + 1) previousEnd rest).map (vs :: ·)

/-- `setImplicitForVolume`: the schema defaults to `gpt` unless it is left open, and each
structure gets its implicit minimum size, role and offset. The uniqueness of filesystem labels
is not checked here. -/
def setImplicitForVolume (vol : Volume) : Except String Volume := do
  let vol ← if vol.hasPartial .schema then
      if vol.schema ≠ .none then
        throw ("partial schema is set but schema is still specified as " ++ quote vol.schema.string)
      else pure vol
    else pure (if vol.schema = .none then { vol with schema := .gpt } else vol)
  let structures ← setImplicitForStructures vol 0 (some 0) vol.structures
  pure { vol with structures := structures }

/-- The loop of `orderStructuresByOffset` that cuts the structures into blocks of contiguous
ones, each started by a structure with an offset: `scss` the blocks before the current one,
`currentCont` the current one, `none` before the first (a structure without an offset there is
the nil dereference). -/
def contiguousStructsLoop (scss : List (List VolumeStructure))
    (currentCont : Option (List VolumeStructure)) :
    List VolumeStructure → Option (List (List VolumeStructure))
  | [] => some (scss ++ currentCont.toList)
  | s :: rest =>
    match s.offset, currentCont with
    | some _, _ => contiguousStructsLoop (scss ++ currentCont.toList) (some [s]) rest
    | none, some cont => contiguousStructsLoop scss (some (cont ++ [s])) rest
    | none, none => none

/-- The offset `contiguousStructsSet.Less` sorts a block by, that of its first structure. -/
def blockOffset (cs : List VolumeStructure) : UInt64 :=
  (cs.head?.bind (·.offset)).getD 0

/-- `orderStructuresByOffset`: the blocks of contiguous structures sorted by their offsets.
`sort.Sort` sorts up to 12 blocks by insertion, which keeps blocks of equal offsets in their
order, as this sort does. -/
def orderStructuresByOffset (vss : List VolumeStructure) : Option (List VolumeStructure) := do
  let scss ← contiguousStructsLoop [] none vss
  pure (scss.insertionSort (fun a b => blockOffset a ≤ blockOffset b)).flatten

def isMBR (vs : VolumeStructure) : Bool :=
  vs.role = .mbr || (vs.role = .none && vs.type = "mbr".toList)

/-- The loop of `validateCrossVolumeStructure`: the structures before `ps` end at
`previousEnd` at their full sizes, the last of them named `prevName` (the first structure
cannot start below `0`, so the name before it is never printed). -/
def crossVolumeStructureLoop (previousEnd : UInt64) (prevName : List Char) :
    List VolumeStructure → Except String Unit
  | [] => .ok ()
  | ps :: rest =>
    if isMBR ps ∧ ps.offset ≠ some 0 then
      .error ("structure " ++ quote ps.name ++ " has \"mbr\" role and must start at offset 0")
    else match ps.offset with
      | some off =>
        if off < previousEnd then
          .error ("structure " ++ quote ps.name ++ " overlaps with the preceding structure " ++
            quote prevName)
        else crossVolumeStructureLoop (off + ps.size) ps.name rest
      | none => crossVolumeStructureLoop (previousEnd + ps.size) ps.name rest

/-- `validateCrossVolumeStructure`, without the checks of `validateOffsetWrite`. -/
def validateCrossVolumeStructure (vol : Volume) : Except String Unit :=
  if vol.schema = .emmc then .ok () else crossVolumeStructureLoop 0 [] vol.structures

/-- `validateEMMCVolumeStructure` on the fields modelled here. -/
def validateEMMCVolumeStructure (vs : VolumeStructure) : Except String Unit :=
  if vs.size ≠ 0 then .error "\"size\" not allowed for emmc volume structures"
  else if vs.minSize ≠ 0 then .error "\"min-size\" not allowed for emmc volume structures"
  else if vs.offset.isSome ∧ vs.offset ≠ some 0 then
    .error "\"offset\" not allowed for emmc volume structures"
  else if vs.type ≠ [] then .error "\"type\" not allowed for emmc volume structures"
  else if vs.role ≠ .none then .error "\"role\" not allowed for emmc volume structures"
  else .ok ()

/-- `validateVolumeStructure`, up to its checks of sizes: those of type, role, filesystem,
content and update are not modelled. -/
def validateVolumeStructure (vs : VolumeStructure) (vol : Volume) : Except String Unit :=
  if vol.schema = .emmc then validateEMMCVolumeStructure vs
  else if !vs.hasPartialSize ∧ vs.size = 0 then .error "missing size"
  else if !vs.hasPartialSize ∧ vs.minSize > vs.size then
    .error ("min-size (" ++ String.ofList (itoa vs.minSize.toNat) ++ ") is bigger than size (" ++
      String.ofList (itoa vs.size.toNat) ++ ")")
  else .ok ()

def fmtIndexAndName (idx : Nat) (name : List Char) : String :=
  if name ≠ [] then "#" ++ String.ofList (itoa idx) ++ " (" ++ quote name ++ ")"
  else "#" ++ String.ofList (itoa idx)

/-- The loop of `validateVolume` over the structures from the `idx`-th on, `knownStructures`
the names seen before. -/
def validateStructures (vol : Volume) :
    Nat → List (List Char) → List VolumeStructure → Except String Unit
  | _, _, [] => .ok ()
  | idx, knownStructures, s :: rest =>
    match validateVolumeStructure s vol with
    | .error err => .error ("invalid structure " ++ fmtIndexAndName idx s.name ++ ": " ++ err)
    | .ok () =>
      if s.name ≠ [] ∧ s.name ∈ knownStructures then
        .error ("structure name " ++ quote s.name ++ " is not unique")
      else validateStructures vol (idx + 1)
        (if s.name ≠ [] then s.name :: knownStructures else knownStructures) rest

/-- `validateVolume`, without the checks of the volume's name and schema; the warnings on
structures over the GPT header are only logged. -/
def validateVolume (vol : Volume) : Except String Unit := do
  validateStructures vol 0 [] vol.structures
  validateCrossVolumeStructure vol

/-- Adding the sizes `sz` of structures, the nearest first, up to the first with an offset,
and that offset: the backward loop of `minStructureOffset` with `MinSize`, and of
`maxStructureOffset` with `Size`. Without any offset the loop leaves its result at `0`. -/
def sumBackToOffset (sz : VolumeStructure → UInt64) :
    List VolumeStructure → UInt64 → UInt64
  | [], _ => 0
  | vs :: rest, othersSz =>
    match vs.offset with
    | some off => off + (othersSz + sz vs)
    | none => sumBackToOffset sz rest (othersSz + sz vs)

/-- The backward loop of `maxStructureOffset`, which also stops, unbounded, at a structure
with a partial size. -/
def maxStructureOffsetBackLoop : List VolumeStructure → UInt64 → UInt64
  | [], _ => 0
  | vs :: rest, othersSz =>
    if vs.hasPartialSize then unboundedStructureOffset
    else match vs.offset with
      | some off => off + (othersSz + vs.size)
      | none => maxStructureOffsetBackLoop rest (othersSz + vs.size)

/-- The forward loop of `maxStructureOffset` from the structure at `idx` on: the next offset
less the `MinSize` of the structures up to it, unbounded when there is none. -/
def maxStructureOffsetFwLoop : List VolumeStructure → UInt64 → UInt64
  | [], _ => unboundedStructureOffset
  | vs :: rest, downSz =>
    match vs.offset with
    | some off => off - downSz
    | none => maxStructureOffsetFwLoop rest (downSz + vs.minSize)

def minStructureOffset (vss : List VolumeStructure) (idx : Nat) : Option UInt64 :=
  vss[idx]?.map fun vs =>
    match vs.offset with
    | some off => off
    | none => sumBackToOffset (·.minSize) (vss.take idx).reverse 0

def maxStructureOffset (vss : List VolumeStructure) (idx : Nat) : Option UInt64 :=
  vss[idx]?.map fun vs =>
    match vs.offset with
    | some off => off
    | none =>
      let max := maxStructureOffsetBackLoop (vss.take idx).reverse 0
      let maxFw := maxStructureOffsetFwLoop (vss.drop idx) 0
      if maxFw < max then maxFw else max

/-- `invalidOffsetError`; the text its `Error` method prints is not modelled. -/
structure InvalidOffsetError where
  offset : UInt64
  lowerBound : UInt64
  upperBound : UInt64
  deriving DecidableEq, Repr

/-- `CheckValidStartOffset`: `some none` for `nil`. -/
def checkValidStartOffset (off : UInt64) (vss : List VolumeStructure) (idx : Nat) :
    Option (Option InvalidOffsetError) := do
  let min ← minStructureOffset vss idx
  let max ← maxStructureOffset vss idx
  pure (if min ≤ off ∧ off ≤ max then none else some ⟨off, min, max⟩)

@[simp] theorem setImplicitForVolumeStructure_offset (vs : VolumeStructure) :
    (setImplicitForVolumeStructure vs).offset = vs.offset := by
  unfold setImplicitForVolumeStructure
  split <;> rfl

@[simp] theorem setImplicitForVolumeStructure_enclosingVolumePartial (vs : VolumeStructure) :
    (setImplicitForVolumeStructure vs).enclosingVolumePartial = vs.enclosingVolumePartial := by
  unfold setImplicitForVolumeStructure
  split <;> rfl

@[simp] theorem setVolumeStructureOffset_enclosingVolumePartial (vs : VolumeStructure)
    (startPtr : Option UInt64) :
    (setVolumeStructureOffset vs startPtr).1.enclosingVolumePartial = vs.enclosingVolumePartial := by
  unfold setVolumeStructureOffset
  split <;> rfl

/-- One structure of `setImplicitForVolume`: it gets its implicit values and points to the
volume, and the loop goes on with the rest. -/
theorem setImplicitForStructures_cons_eq_ok {vol : Volume} {i : Nat} {previousEnd : Option UInt64}
    {vs : VolumeStructure} {rest vss' : List VolumeStructure}
    (h : setImplicitForStructures vol i previousEnd (vs :: rest) = .ok vss') :
    ∃ v next tail, v.enclosingVolumePartial = vol.partialProperties ∧
      setImplicitForStructures vol (i + 1) next rest = .ok tail ∧
      (vol.schema = .emmc → vss' = { v with offset := some 0 } :: tail) ∧
      (vol.schema ≠ .emmc → vss' = (setVolumeStructureOffset v previousEnd).1 :: tail) := by
  simp only [setImplicitForStructures] at h
  generalize hv : setImplicitForVolumeStructure
    { vs with minSize := if vs.minSize = 0 then vs.size else vs.minSize
              enclosingVolumePartial := vol.partialProperties } = v at h
  have hpart : v.enclosingVolumePartial = vol.partialProperties := by
    rw [← hv, setImplicitForVolumeStructure_enclosingVolumePartial]
  split at h
  · cases h
  · cases hs : vol.schema <;> simp only [hs] at h
    case emmc =>
      cases hrest : setImplicitForStructures vol (i + 1) previousEnd rest with
      | error err => simp [hrest, Except.map] at h
      | ok tail =>
        simp only [hrest, Except.map, Except.ok.injEq] at h
        exact ⟨v, previousEnd, tail, hpart, hrest, fun _ => h.symm, fun hne => absurd rfl hne⟩
    all_goals
      generalize hsv : setVolumeStructureOffset v previousEnd = p at h
      obtain ⟨v', next⟩ := p
      cases hrest : setImplicitForStructures vol (i + 1) next rest with
      | error err => simp [hrest, Except.map] at h
      | ok tail =>
        simp only [hrest, Except.map, Except.ok.injEq] at h
        exact ⟨v, next, tail, hpart, hrest, fun hne => by simp at hne, fun _ => by rw [hsv, h]⟩

theorem enclosingVolumePartial_of_setImplicitForStructures {vol : Volume} {i : Nat}
    {previousEnd : Option UInt64} {vss vss' : List VolumeStructure}
    (h : setImplicitForStructures vol i previousEnd vss = .ok vss') :
    ∀ vs ∈ vss', vs.enclosingVolumePartial = vol.partialProperties := by
  induction vss generalizing i previousEnd vss' with
  | nil =>
    cases h
    simp
  | cons vs rest ih =>
    obtain ⟨v, next, tail, hpart, hrest, hemmc, hcons⟩ := setImplicitForStructures_cons_eq_ok h
    have htail := ih hrest
    by_cases hs : vol.schema = .emmc
    · rw [hemmc hs]
      simpa [hpart] using htail
    · rw [hcons hs]
      simpa [hpart] using htail

theorem setImplicitForVolume_structures_eq_ok {v vol' : Volume}
    (h : (do
      let structures ← setImplicitForStructures v 0 (some 0) v.structures
      pure { v with structures := structures } : Except String Volume) = .ok vol') :
    vol'.schema = v.schema ∧
      setImplicitForStructures v 0 (some 0) v.structures = .ok vol'.structures := by
  cases hst : setImplicitForStructures v 0 (some 0) v.structures with
  | error err =>
    rw [hst] at h
    cases h
  | ok vss =>
    rw [hst] at h
    cases h
    exact ⟨rfl, rfl⟩

/-- `setImplicitForVolume` keeps the volume's partial properties and, outside eMMC, sets
offsets from an end of `0` on. -/
theorem setImplicitForVolume_eq_ok {vol vol' : Volume} (hemmc : vol.schema ≠ .emmc)
    (h : setImplicitForVolume vol = .ok vol') :
    vol'.schema ≠ .emmc ∧ ∃ v : Volume, v.schema = vol'.schema ∧
      v.partialProperties = vol.partialProperties ∧
      setImplicitForStructures v 0 (some 0) vol.structures = .ok vol'.structures := by
  unfold setImplicitForVolume at h
  by_cases hp : vol.hasPartial .schema <;> by_cases hs : vol.schema = .none <;>
    simp only [hp, hs, if_true, if_false, ne_eq, not_true_eq_false, not_false_eq_true,
      Bool.false_eq_true, pure_bind] at h
  · obtain ⟨hschema, hst⟩ := setImplicitForVolume_structures_eq_ok (v := vol) (by rw [hs]; exact h)
    exact ⟨by rw [hschema]; exact hemmc, vol, hschema.symm, rfl, hst⟩
  · cases h
  · obtain ⟨hschema, hst⟩ := setImplicitForVolume_structures_eq_ok h
    exact ⟨by rw [hschema]; simp, _, hschema.symm, rfl, hst⟩
  · obtain ⟨hschema, hst⟩ := setImplicitForVolume_structures_eq_ok h
    exact ⟨by rw [hschema]; exact hemmc, vol, hschema.symm, rfl, hst⟩

/-- The blocks are not empty and each begins with a structure with an offset. -/
def BlocksStartWithOffset (scss : List (List VolumeStructure)) : Prop :=
  ∀ cs ∈ scss, ∃ vs rest, cs = vs :: rest ∧ vs.offset.isSome

theorem contiguousStructsLoop_eq_some {scss : List (List VolumeStructure)}
    {currentCont : Option (List VolumeStructure)} {vss : List VolumeStructure}
    {res : List (List VolumeStructure)} (h : contiguousStructsLoop scss currentCont vss = some res)
    (hblocks : BlocksStartWithOffset (scss ++ currentCont.toList)) :
    BlocksStartWithOffset res ∧ res.flatten = (scss ++ currentCont.toList).flatten ++ vss := by
  induction vss generalizing scss currentCont with
  | nil =>
    cases h
    simpa using hblocks
  | cons s rest ih =>
    simp only [contiguousStructsLoop] at h
    split at h
    · -- a structure with an offset starts a new block
      rename_i hoff
      refine (ih h ?_).imp id (by simp)
      intro cs hcs
      simp only [Option.toList_some, List.mem_append, List.mem_singleton] at hcs
      rcases hcs with hcs | rfl
      · exact hblocks cs (by simpa using hcs)
      · exact ⟨s, [], rfl, by simp [hoff]⟩
    · -- one without goes at the end of the current block
      rename_i cont _
      refine (ih h ?_).imp id (by simp)
      intro cs hcs
      simp only [Option.toList_some, List.mem_append, List.mem_singleton] at hcs
      rcases hcs with hcs | rfl
      · exact hblocks cs (by simp [hcs])
      · obtain ⟨vs, r, hcont, hvs⟩ := hblocks cont (by simp)
        exact ⟨vs, r ++ [s], by simp [hcont], hvs⟩
    · cases h

/-- `orderStructuresByOffset` only reorders the structures, and the first of them has an
offset. -/
theorem orderStructuresByOffset_eq_some {vss vss' : List VolumeStructure}
    (h : orderStructuresByOffset vss = some vss') :
    (∀ vs ∈ vss'.head?, vs.offset.isSome) ∧ ∀ vs ∈ vss', vs ∈ vss := by
  simp only [orderStructuresByOffset, Option.bind_eq_bind, Option.bind_eq_some_iff,
    Option.pure_def, Option.some.injEq] at h
  obtain ⟨scss, hloop, rfl⟩ := h
  obtain ⟨hblocks, hflat⟩ := contiguousStructsLoop_eq_some hloop (by simp [BlocksStartWithOffset])
  simp only [List.nil_append, Option.toList_none, List.flatten_nil] at hflat
  constructor
  · cases hsort : scss.insertionSort (fun a b => blockOffset a ≤ blockOffset b) with
    | nil => simp
    | cons cs rest =>
      have hcs : cs ∈ scss := (List.mem_insertionSort _).mp (hsort ▸ List.mem_cons_self)
      obtain ⟨vs, r, rfl, hvs⟩ := hblocks cs hcs
      simpa using hvs
  · intro vs hvs
    obtain ⟨cs, hcs, hvs⟩ := List.mem_flatten.mp hvs
    rw [← hflat]
    exact List.mem_flatten.mpr ⟨cs, (List.mem_insertionSort _).mp hcs, hvs⟩

/-- A structure that `validateVolume` accepts outside eMMC, and whose size is not partial, is
at least its minimum size. -/
theorem minSize_le_size_of_validateStructures {vol : Volume} (hemmc : vol.schema ≠ .emmc)
    {idx : Nat} {knownStructures : List (List Char)} {vss : List VolumeStructure}
    (h : validateStructures vol idx knownStructures vss = .ok ()) :
    ∀ vs ∈ vss, vs.hasPartialSize = false → vs.minSize ≤ vs.size := by
  induction vss generalizing idx knownStructures with
  | nil => simp
  | cons s rest ih =>
    simp only [validateStructures] at h
    split at h
    · cases h
    · rename_i hs
      split at h
      · cases h
      · intro vs hvs hpart
        rcases List.mem_cons.mp hvs with rfl | hvs
        · simp only [validateVolumeStructure, hemmc, if_false, hpart] at hs
          split at hs
          · cases hs
          · split at hs
            · cases hs
            · rename_i hgt
              simpa using hgt
        · exact ih h vs hvs hpart

theorem validateVolume_eq_ok {vol : Volume} (h : validateVolume vol = .ok ()) :
    validateStructures vol 0 [] vol.structures = .ok () ∧
      validateCrossVolumeStructure vol = .ok () := by
  simp only [validateVolume] at h
  cases hs : validateStructures vol 0 [] vol.structures with
  | error err =>
    rw [hs] at h
    cases h
  | ok u =>
    rw [hs] at h
    exact ⟨rfl, h⟩

end Snapd.Gadget
