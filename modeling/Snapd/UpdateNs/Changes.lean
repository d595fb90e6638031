import Snapd.Osutil.MountEntry
import Snapd.Lib.GoPath
import Snapd.Lib.AssocList
import Snapd.Lib.Run
import Snapd.Snap.Layout

/-! The mount changes of snap-update-ns (`cmd/snap-update-ns/change.go`, `neededChanges`, with
the orders of `sorting.go`): which entries of the current mount profile are kept and which are
unmounted, and in which order the desired entries that are not kept are mounted.
`neededChanges` also reads the file system, and it leaves two orders to Go: `sort.Sort` is not
stable, and a `range` over a map visits the keys in any order. These are the fields of an
`Env`. Go strings are character lists, and Go maps association lists. -/

namespace Snapd.UpdateNs

open Osutil GoPath GoText
open Snap (stringLess sortStrings)

/-- `Action`: what a change does with its entry. -/
inductive Action where
  | keep
  | mount
  | unmount
  deriving DecidableEq, Repr

/-- `Change`: an action on a mount entry. -/
structure Change where
  action : Action
  entry : MountEntry
  deriving DecidableEq, Repr

/-- A mount point with the trailing slash the orders compare it with. -/
def withSlash (dir : List Char) : List Char :=
  if ['/'].isSuffixOf dir then dir else dir ++ ['/']

/-- `byOvernameAndMountPoint.Less`: `overname` entries first, then by mount point. -/
def byOvernameAndMountPointLess (iMe jMe : MountEntry) : Bool :=
  let iOrigin := iMe.xSnapdOrigin
  let jOrigin := jMe.xSnapdOrigin
  let byDir := stringLess (withSlash iMe.dir) (withSlash jMe.dir)
  if iOrigin ≠ jOrigin then
    if iOrigin = "overname".toList then true
    else if jOrigin = "overname".toList then false
    else byDir
  else byDir

/-- `byOriginAndMountPoint.Less`: `overname` entries first and `layout` entries last, then by
mount point. -/
def byOriginAndMountPointLess (iMe jMe : MountEntry) : Bool :=
  let iOrigin := iMe.xSnapdOrigin
  let jOrigin := jMe.xSnapdOrigin
  let byDir := stringLess (withSlash iMe.dir) (withSlash jMe.dir)
  if iOrigin ≠ jOrigin then
    if iOrigin = "overname".toList then true
    else if jOrigin = "overname".toList then false
    else if iOrigin = "layout".toList then false
    else if jOrigin = "layout".toList then true
    else byDir
  else byDir

/-- What `neededChanges` reads besides the two profiles: the probes `osutilIsDirectory`,
`osutil.FileExists` and `osutil.IsSymlink`; the results of `sort.Sort` by the two orders, which
put the entries in order but equal ones in an order of the sort's choosing; and the order in
which a `range` visits the keys of a map. Each of the last three returns its argument in some
order. -/
structure Env where
  isDirectory : List Char → Bool
  fileExists : List Char → Bool
  isSymlink : List Char → Bool
  sortByOvername : List MountEntry → List MountEntry
  sortByOrigin : List MountEntry → List MountEntry
  rangeOrder : List (List Char) → List (List Char)
  sortByOvername_perm : ∀ l, (sortByOvername l).Perm l
  sortByOrigin_perm : ∀ l, (sortByOrigin l).Perm l
  rangeOrder_perm : ∀ l, (rangeOrder l).Perm l

/-- `findFirstRootDirectoryThatExists`, for at most `fuel` calls: `none` where it would not
return. -/
def findFirstRootDirectoryThatExists (isDirectory : List Char → Bool) :
    Nat → List Char → Option (List Char)
  | 0, _ => none
  | fuel + 1, desiredParentDir =>
    if isDirectory desiredParentDir then some desiredParentDir
    else findFirstRootDirectoryThatExists isDirectory fuel (dir desiredParentDir)

/-- The entries with their mount points cleaned (`filepath.Clean`). -/
def cleanDirs (entries : List MountEntry) : List MountEntry :=
  entries.map fun e => { e with dir := clean e.dir }

theorem cleanDirs_eq_self {l : List MountEntry} (h : ∀ e ∈ l, clean e.dir = e.dir) :
    cleanDirs l = l := by
  conv_rhs => rw [← List.map_id l]
  exact List.map_congr_left fun e he => by simp [h e he]

theorem clean_dir_of_mem_cleanDirs {l : List MountEntry} {e : MountEntry} (h : e ∈ cleanDirs l) :
    clean e.dir = e.dir := by
  obtain ⟨x, -, rfl⟩ := List.mem_map.mp h
  exact clean_clean x.dir

/-- `desiredMap`: the desired entry on each mount point, the last one where there are several. -/
def desiredMapOf (desired : List MountEntry) : List (List Char × MountEntry) :=
  desired.foldl (fun m e => AssocList.insert m e.dir e) []

/-- `desiredIDs`: the identifiers of the desired entries. -/
def desiredIDsOf (desired : List MountEntry) : List (List Char × Bool) :=
  desired.foldl (fun m e => AssocList.insert m e.xSnapdEntryID true) []

/-- Whether the loop over the current entries reuses an entry it does not skip: the `rootfs`
set up by snap-confine; a synthetic entry whose needing entry is desired, unless a different
desired entry is on its mount point; an entry equal to the desired one on its mount point. -/
def reusable (desiredMap : List (List Char × MountEntry)) (desiredIDs : List (List Char × Bool))
    (entry : MountEntry) : Bool :=
  if entry.xSnapdOrigin = "rootfs".toList then true
  else if entry.xSnapdSynthetic && (AssocList.find desiredIDs entry.xSnapdNeededBy).getD false then
    match AssocList.find desiredMap entry.dir with
    | some desiredEntry => entry.equal desiredEntry
    | none => true
  else
    match AssocList.find desiredMap entry.dir with
    | some desiredEntry => entry.equal desiredEntry
    | none => false

/-- `mountEntryId`: the key of `reuse`, an entry's mount point and file system type. -/
def mountEntryId (entry : MountEntry) : List Char × List Char := (entry.dir, entry.type)

/-- `reuse[mountEntryId{entry.Dir, entry.Type}]`: whether the loop reused the mount point and
file system type of an entry. -/
def reused (reuse : List ((List Char × List Char) × Bool)) (entry : MountEntry) : Bool :=
  (AssocList.find reuse (mountEntryId entry)).getD false

/-- The variables of the loop over the current entries: `reuse`, keyed by `mountEntryId` (mount
point and file system type), and `skipDir`. -/
structure ReuseState where
  reuse : List ((List Char × List Char) × Bool)
  skipDir : List Char

/-- One round of the loop over the current entries: an entry under `skipDir` is skipped; one
that is reused resets `skipDir`; one that is not makes its own mount point the prefix to skip. -/
def reuseStep (desiredMap : List (List Char × MountEntry)) (desiredIDs : List (List Char × Bool))
    (st : ReuseState) (entry : MountEntry) : ReuseState :=
  if st.skipDir ≠ [] ∧ st.skipDir.isPrefixOf entry.dir then st
  else if reusable desiredMap desiredIDs entry then
    ⟨AssocList.insert st.reuse (mountEntryId entry) true, []⟩
  else ⟨st.reuse, trimSuffix entry.dir ['/'] ++ ['/']⟩

/-- The loop over the current entries, sorted by `byOvernameAndMountPoint`. -/
def reuseLoop (env : Env) (desiredMap : List (List Char × MountEntry))
    (desiredIDs : List (List Char × Bool)) (current : List MountEntry) : ReuseState :=
  (env.sortByOvername current).foldl (reuseStep desiredMap desiredIDs) ⟨[], []⟩

/-- The change for an entry of the current profile: kept when its mount point and type are
reused, otherwise unmounted, and detached if it can host other mounts. -/
def unmountChange (reuse : List ((List Char × List Char) × Bool)) (entry : MountEntry) : Change :=
  if reused reuse entry then ⟨.keep, entry⟩
  else
    let shouldDetach := entry.type == "tmpfs".toList || entry.optBool "bind".toList ||
      entry.optBool "rbind".toList
    if shouldDetach && !entry.xSnapdDetach then
      ⟨.unmount, { entry with options := entry.options ++ ["x-snapd.detach".toList] }⟩
    else ⟨.unmount, entry⟩

/-- The variables of the ordering of the mounts: `newDesiredEntries`,
`newIndependentDesiredEntries` and `addedDesiredEntries`, keyed by mount point. -/
structure AddState where
  newDesiredEntries : List MountEntry
  newIndependentDesiredEntries : List MountEntry
  addedDesiredEntries : List (List Char × Bool)

/-- The body shared by the two closures: an entry on a mount point not added yet is appended to
the independent entries or to the others, and its mount point marked. -/
def addEntry (independent : Bool) (st : AddState) (entry : MountEntry) : AddState :=
  if (AssocList.find st.addedDesiredEntries entry.dir).getD false then st
  else if independent then
    ⟨st.newDesiredEntries, st.newIndependentDesiredEntries ++ [entry],
      AssocList.insert st.addedDesiredEntries entry.dir true⟩
  else
    ⟨st.newDesiredEntries ++ [entry], st.newIndependentDesiredEntries,
      AssocList.insert st.addedDesiredEntries entry.dir true⟩

def addDesiredEntry (st : AddState) (entry : MountEntry) : AddState := addEntry false st entry

def addIndependentDesiredEntry (st : AddState) (entry : MountEntry) : AddState :=
  addEntry true st entry

/-- The first loop over the desired entries not reused: an `overname` entry is independent,
and every entry is filed under the parent of its mount point in `affectedTargetCreationDirs`. -/
def fileEntry (acc : AddState × List (List Char × List MountEntry)) (entry : MountEntry) :
    AddState × List (List Char × List MountEntry) :=
  (if entry.xSnapdOrigin = "overname".toList then addIndependentDesiredEntry acc.1 entry else acc.1,
    AssocList.appendAt acc.2 (dir entry.dir) entry)

/-- Whether the target of an entry exists in the form its kind needs. -/
def targetExists (env : Env) (entry : MountEntry) : Bool :=
  let kind := entry.xSnapdKind
  if kind = [] then env.isDirectory entry.dir
  else if kind = "file".toList then env.fileExists entry.dir
  else if kind = "symlink".toList then env.isSymlink entry.dir
  else true

/-- One entry filed under `parentTargetDir`: independent if its target exists, otherwise filed
in `entriesForMimicDir` under the first directory above it that exists. -/
def mimicEntryStep (env : Env) (parentTargetDir : List Char)
    (acc : AddState × List (List Char × List MountEntry)) (entry : MountEntry) :
    Option (AddState × List (List Char × List MountEntry)) :=
  if targetExists env entry then some (addIndependentDesiredEntry acc.1 entry, acc.2)
  else
    (findFirstRootDirectoryThatExists env.isDirectory (parentTargetDir.length + 1)
        parentTargetDir).map fun neededMimicDir =>
      (acc.1, AssocList.appendAt acc.2 neededMimicDir entry)

/-- The entries filed under one key of `affectedTargetCreationDirs`, in the `range` loop. -/
def mimicDirStep (env : Env) (affectedTargetCreationDirs : List (List Char × List MountEntry))
    (acc : AddState × List (List Char × List MountEntry)) (parentTargetDir : List Char) :
    Option (AddState × List (List Char × List MountEntry)) :=
  ((AssocList.find affectedTargetCreationDirs parentTargetDir).getD []).foldlM
    (mimicEntryStep env parentTargetDir) acc

/-- The entries waiting for the mimic at one directory, sorted and added in turn. -/
def addMimicDir (env : Env) (entriesForMimicDir : List (List Char × List MountEntry))
    (st : AddState) (mimicDir : List Char) : AddState :=
  (env.sortByOrigin ((AssocList.find entriesForMimicDir mimicDir).getD [])).foldl
    addDesiredEntry st

/-- The mimic directories in increasing order (`sort.Strings`), the entries of each added. -/
def addMimicDirs (env : Env) (st : AddState)
    (entriesForMimicDir : List (List Char × List MountEntry)) : AddState :=
  (sortStrings (entriesForMimicDir.map Prod.fst)).foldl (addMimicDir env entriesForMimicDir) st

/-- The first loop over the desired entries not reused. -/
def fileEntries (desiredNotReused : List MountEntry) :
    AddState × List (List Char × List MountEntry) :=
  desiredNotReused.foldl fileEntry (⟨[], [], []⟩, [])

/-- The `range` loop over `affectedTargetCreationDirs` and the loop over the mimic directories,
which run where an entry was filed. -/
def addAffected (env : Env) (filing : AddState × List (List Char × List MountEntry)) :
    Option AddState :=
  if filing.2 ≠ [] then
    ((env.rangeOrder (filing.2.map Prod.fst)).foldlM (mimicDirStep env filing.2)
        (filing.1, [])).map fun acc =>
      addMimicDirs env acc.1 acc.2
  else some filing.1

/-- The mounts of the desired entries that are not reused, in the order they are made: the
independent entries sorted, then the entries needing a mimic, by mimic directory. -/
def mountOrder (env : Env) (desiredNotReused : List MountEntry) : Option (List MountEntry) :=
  (addAffected env (fileEntries desiredNotReused)).map fun st =>
    env.sortByOrigin st.newIndependentDesiredEntries ++ st.newDesiredEntries

/-- `neededChanges`: a change keeping or unmounting each entry of the current profile, the last
one first, then a change mounting each desired entry that is not reused. `none` where it would
not return. -/
def neededChanges (env : Env) (currentProfile desiredProfile : List MountEntry) :
    Option (List Change) :=
  let current := cleanDirs currentProfile
  let desired := env.sortByOrigin (cleanDirs desiredProfile)
  let st := reuseLoop env (desiredMapOf desired) (desiredIDsOf desired) current
  let desiredNotReused := desired.filter fun e => !reused st.reuse e
  (mountOrder env desiredNotReused).map fun allEntries =>
    current.reverse.map (unmountChange st.reuse) ++ allEntries.map fun entry => ⟨.mount, entry⟩

end Snapd.UpdateNs
