import Snapd.Lib.AssocList

/-! `interfaces/mount/spec.go`: the mount entries a snap's connections ask for, with clashing
mount points renamed `dir-2`, `dir-3`, ... and entries of the same source and type on one
mount point merged into one. A `MountEntry` keeps the fields `unclashMountEntries` reads
(`osutil.MountEntry` also has the dump frequency and the fsck pass number, which it copies
along unread). Go strings are character lists. -/

namespace Snapd.Interfaces.Mount

/-- `osutil.MountEntry`: source, mount point, file system type and options. -/
structure MountEntry where
  name : List Char
  dir : List Char
  type : List Char
  options : List (List Char)
  deriving DecidableEq, Repr

/-- `MountEntry.OptStr`: the value after the first `=` of the first option `name=...`. -/
def MountEntry.optStr (e : MountEntry) (name : List Char) : Option (List Char) :=
  (e.options.find? fun opt => (name ++ ['=']).isPrefixOf opt).map fun opt =>
    (opt.dropWhile (· ≠ '=')).drop 1

def MountEntry.xSnapdKind (e : MountEntry) : List Char := (e.optStr "x-snapd.kind".toList).getD []

def MountEntry.xSnapdOrigin (e : MountEntry) : List Char :=
  (e.optStr "x-snapd.origin".toList).getD []

/-- The variables of the loop of `mergeOptions`. -/
structure MergeState where
  mergedOptions : List (List Char)
  foundWritableEntry : Bool
  foundRBindEntry : Bool
  firstEntryIsBindMount : Bool

/-- The `switch` on one option `o` of an entry, with that entry's `isReadOnly` and `isRBind`;
`first` says whether the entry is the first one. -/
def mergeOption (first : Bool) (acc : MergeState × Bool × Bool) (o : List Char) :
    MergeState × Bool × Bool :=
  let (st, isReadOnly, isRBind) := acc
  if o = "ro".toList then (st, true, isRBind)
  -- `rbind` falls through to `bind`
  else if o = "rbind".toList then
    ({ st with firstEntryIsBindMount := st.firstEntryIsBindMount || first }, isReadOnly, true)
  else if o = "bind".toList then
    ({ st with firstEntryIsBindMount := st.firstEntryIsBindMount || first }, isReadOnly, isRBind)
  else if o = "rw".toList ∨ o = "async".toList then acc
  else if o ∈ st.mergedOptions then acc
  else ({ st with mergedOptions := st.mergedOptions ++ [o] }, isReadOnly, isRBind)

/-- One round of the loop of `mergeOptions`, over the options of one entry. -/
def mergeEntry (first : Bool) (st : MergeState) (opts : List (List Char)) : MergeState :=
  let (st, isReadOnly, isRBind) := opts.foldl (mergeOption first) (st, false, false)
  { st with
    foundWritableEntry := st.foundWritableEntry || !isReadOnly
    foundRBindEntry := st.foundRBindEntry || isRBind }

/-- `mergeOptions`: the most permissive options of entries with one source, mount point and
type. -/
def mergeOptions (options : List (List (List Char))) : List (List Char) :=
  let st := (options.zipIdx.foldl fun st (opts, i) => mergeEntry (i = 0) st opts)
    ⟨[], false, false, false⟩
  let merged := if !st.foundWritableEntry then st.mergedOptions ++ ["ro".toList]
    else st.mergedOptions
  if st.firstEntryIsBindMount then
    if st.foundRBindEntry then merged ++ ["rbind".toList] else merged ++ ["bind".toList]
  else merged

/-- `clashingEntry`: where the first entry on a mount point is, and how many entries use it. -/
structure ClashingEntry where
  firstIndex : Nat
  count : Nat
  deriving DecidableEq, Repr

/-- The variables of the loop of `unclashMountEntries`. -/
structure UnclashState where
  result : List MountEntry
  entriesByMountPoint : List (List Char × ClashingEntry)
  ensureDirEntries : List MountEntry

/-- `fmt.Sprintf("%s-%d", dir, count)` -/
def renamedDir (dir : List Char) (count : Nat) : List Char := dir ++ '-' :: (Nat.repr count).toList

/-- One round of the loop of `unclashMountEntries`. -/
def unclashStep (st : UnclashState) (e : MountEntry) : UnclashState :=
  if e.xSnapdKind = "ensure-dir".toList then
    { st with ensureDirEntries := st.ensureDirEntries ++ [e] }
  else
    match AssocList.find st.entriesByMountPoint e.dir with
    | none =>
      { st with
        result := st.result ++ [e]
        entriesByMountPoint :=
          AssocList.insert st.entriesByMountPoint e.dir ⟨st.result.length, 1⟩ }
    | some entryInMap =>
      let firstEntry := st.result.getD entryInMap.firstIndex e
      if firstEntry.name = e.name ∧ firstEntry.type = e.type ∧
          firstEntry.xSnapdOrigin = [] ∧ e.xSnapdOrigin = [] then
        { st with
          result := st.result.set entryInMap.firstIndex
            { firstEntry with options := mergeOptions [firstEntry.options, e.options] } }
      else
        let count := entryInMap.count + 1
        { st with
          result := st.result ++ [{ e with dir := renamedDir e.dir count }]
          entriesByMountPoint :=
            AssocList.insert st.entriesByMountPoint e.dir ⟨entryInMap.firstIndex, count⟩ }

/-- `unclashMountEntries`: clashing mount points renamed, the ensure-dir entries last. -/
def unclashMountEntries (entries : List MountEntry) : List MountEntry :=
  let st := entries.foldl unclashStep ⟨[], [], []⟩
  st.result ++ st.ensureDirEntries

/-- The mounts `Specification` collects: parallel-install mappings, layouts, the other
entries, and the per-user entries. -/
structure Specification where
  overname : List MountEntry
  layout : List MountEntry
  general : List MountEntry
  user : List MountEntry

def Specification.mountEntries (spec : Specification) : List MountEntry :=
  unclashMountEntries (spec.overname ++ spec.layout ++ spec.general)

def Specification.userMountEntries (spec : Specification) : List MountEntry :=
  unclashMountEntries spec.user

/-- A bind mount of `src` on `dir`. -/
def bindEntry (src dir : List Char) : MountEntry := ⟨src, dir, "none".toList, ["bind".toList]⟩

/-- Two layouts bind different sources on `/t`, and a third binds on `/t-2`. The second is
renamed `/t-2`, a mount point `unclashMountEntries` never registers, so the third is taken as
the first on `/t-2` and kept there: two entries of the result mount on `/t-2`. -/
theorem renamed_mount_point_clashes_with_original :
    (Specification.mountEntries ⟨[], [bindEntry "/a".toList "/t".toList,
        bindEntry "/b".toList "/t".toList, bindEntry "/c".toList "/t-2".toList], [], []⟩).map
      MountEntry.dir = ["/t".toList, "/t-2".toList, "/t-2".toList] := by
  decide

end Snapd.Interfaces.Mount
