import Snapd.Lib.GoPath
import Snapd.Naming.Validate

/-! The mounts of the content interface (`interfaces/builtin/content.go`): the checks of the
slot's and the plug's paths, the expansion of `$SNAP`, `$SNAP_DATA` and `$SNAP_COMMON`
(`snap.ValidatePathVariables` and `Info.ExpandSnapVariablesSetSnapMountDir`), and the mount
entries of a connection. `os.Expand` is a parameter, of which only its documented behaviour
(`GoPath.ExpandSpec`) is assumed. The label attributes (`content`, `compatibility`) do not
bear on paths and are left out. -/

namespace Snapd.Interfaces.Content

open GoPath Naming

def coreSnapMountDir : List Char := "/snap".toList

/-- `dirs.SnapDataDir`, with the root directory `/`. -/
def snapDataDir : List Char := "/var/snap".toList

/-- What the expansion reads of a `snap.Info`: the snap name, the instance key and the
revision as `Revision.String` prints it. -/
structure SnapInfo where
  snapName : List Char
  instanceKey : List Char
  revision : List Char

def SnapInfo.instanceName (s : SnapInfo) : List Char :=
  if s.instanceKey = [] then s.snapName else s.snapName ++ '_' :: s.instanceKey

inductive ExpandSnapPerspective where
  | perspectiveSelf
  | perspectiveOther
  deriving DecidableEq, Repr

/-- `snap.DataDir`, through `BaseDataDir`. -/
def dataDir (name revision : List Char) : List Char := join [join [snapDataDir, name], revision]

def commonDataDir (name : List Char) : List Char := join [snapDataDir, name, "common".toList]

/-- `Info.ExpandSnapVariablesSetSnapMountDir`: `$SNAP` is the mount directory of the
revision; other variables expand to nothing. -/
def SnapInfo.expandSnapVariablesSetSnapMountDir
    (expand : (List Char → List Char) → List Char → List Char) (s : SnapInfo)
    (path snapMountDir : List Char) (expandFor : ExpandSnapPerspective) : List Char :=
  let name := if expandFor = .perspectiveOther then s.instanceName else s.snapName
  expand (fun v =>
    if v = "SNAP".toList then join [snapMountDir, name, s.revision]
    else if v = "SNAP_DATA".toList then dataDir name s.revision
    else if v = "SNAP_COMMON".toList then commonDataDir name
    else []) path

/-- The characters `ValidatePathVariables` reads into a variable name. -/
def isVarChar (c : Char) : Bool := ('a' ≤ c ∧ c ≤ 'z') ∨ ('A' ≤ c ∧ c ≤ 'Z') ∨ c = '_'

/-- The loop of `ValidatePathVariables`, one round per `$`. -/
def validatePathVariablesLoop : Nat → List Char → Except String Unit
  | 0, _ => .ok ()
  | fuel + 1, path =>
    match path.idxOf? '$' with
    | none => .ok ()
    | some start =>
      let path := path.drop (start + 1)
      let v := path.takeWhile isVarChar
      if v ≠ "SNAP".toList ∧ v ≠ "SNAP_DATA".toList ∧ v ≠ "SNAP_COMMON".toList then
        .error ("reference to unknown variable " ++ quoted ('$' :: v))
      else validatePathVariablesLoop fuel (path.drop v.length)

/-- `snap.ValidatePathVariables`: every `$` starts `$SNAP`, `$SNAP_DATA` or `$SNAP_COMMON`,
read as the longest run of letters and `_` after it. Each round consumes a `$`, so the length
of the path bounds the rounds. -/
def validatePathVariables (path : List Char) : Except String Unit :=
  validatePathVariablesLoop path.length path

/-- The reserved characters of `apparmor_sandbox.ValidateNoAppArmorRegexp`. -/
def aare : List Char := ['?', '*', '[', ']', '\x7b', '\x7d', '^', '"', '\x00']

def validateNoAppArmorRegexp (s : List Char) : Except String Unit :=
  if s.any (· ∈ aare) then
    .error (quoted s ++ " contains a reserved apparmor char from " ++ String.ofList aare)
  else .ok ()

def cleanSubPath (path : List Char) : Bool :=
  clean path = path && path ≠ "..".toList && !"../".toList.isPrefixOf path

def validatePath (path : List Char) : Except String Unit :=
  match validateNoAppArmorRegexp path with
  | .error e => .error ("content interface path is invalid: " ++ e)
  | .ok () =>
    if !cleanSubPath path then .error ("content interface path is not clean: " ++ quoted path)
    else .ok ()

/-- The two path attributes of a slot. -/
inductive PathAttr where
  | read
  | write
  deriving DecidableEq, Repr

/-- The attributes of a content slot that its paths come from: a `source` section with its
`read` and `write` lists, and the legacy `read` and `write` attributes. -/
structure ContentSlot where
  snap : SnapInfo
  source : Option (Option (List (List Char)) × Option (List (List Char)))
  read : Option (List (List Char))
  write : Option (List (List Char))

/-- A content plug: its snap and its `target` attribute. -/
structure ContentPlug where
  snap : SnapInfo
  target : Option (List Char)

/-- `contentInterface.path`: the list in the `source` section if there is one, else the
legacy attribute; nothing if it is absent. -/
def ContentSlot.path (slot : ContentSlot) (name : PathAttr) : List (List Char) :=
  match slot.source with
  | some (read, write) => (if name = .read then read else write).getD []
  | none => (if name = .read then slot.read else slot.write).getD []

def beforePrepareSlot (slot : ContentSlot) : Except String Unit :=
  if slot.source.isSome ∧ slot.read.isSome then
    .error "move the \"read\" attribute into the \"source\" section"
  else if slot.source.isSome ∧ slot.write.isSome then
    .error "move the \"write\" attribute into the \"source\" section"
  else
    let rpath := slot.path .read
    let wpath := slot.path .write
    if rpath = [] ∧ wpath = [] then .error "read or write path must be set"
    else (rpath ++ wpath).forM validatePath

def beforePreparePlug (plug : ContentPlug) : Except String Unit :=
  match plug.target with
  | none | some [] => .error "content plug must contain target path"
  | some target => validatePath target

/-- `resolveSpecialVariable`: a path starting with one of the three variables is expanded;
any other is taken below `$SNAP`. -/
def resolveSpecialVariable (expand : (List Char → List Char) → List Char → List Char)
    (path : List Char) (snapInfo : SnapInfo) (perspective : ExpandSnapPerspective) : List Char :=
  if (validatePathVariables path).isOk ∧ path.head? = some '$' then
    snapInfo.expandSnapVariablesSetSnapMountDir expand path coreSnapMountDir perspective
  else
    snapInfo.expandSnapVariablesSetSnapMountDir expand (join ["$SNAP".toList, path])
      coreSnapMountDir perspective

/-- `osutil.MountEntry`: what is mounted, where, and with which options. -/
structure MountEntry where
  name : List Char
  dir : List Char
  options : List (List Char)
  deriving DecidableEq, Repr

/-- `sourceTarget`: the source from the slot's snap, seen from other snaps; the target from
the plug's snap, seen from itself, with the source's base name added under a `source`
section. -/
def sourceTarget (expand : (List Char → List Char) → List Char → List Char) (plug : ContentPlug)
    (slot : ContentSlot) (relSrc : List Char) : List Char × List Char :=
  let source := resolveSpecialVariable expand relSrc slot.snap .perspectiveOther
  let target := resolveSpecialVariable expand (plug.target.getD []) plug.snap .perspectiveSelf
  if slot.source.isSome then (source, join [target, (split source).2]) else (source, target)

def mountEntry (expand : (List Char → List Char) → List Char → List Char) (plug : ContentPlug)
    (slot : ContentSlot) (relSrc : List Char) (extraOptions : List (List Char)) : MountEntry :=
  let (source, target) := sourceTarget expand plug slot relSrc
  ⟨source, target, "bind".toList :: extraOptions⟩

/-- `contentInterface.MountConnectedPlug`: a read-only entry per read path, then an entry
per write path. -/
def mountConnectedPlug (expand : (List Char → List Char) → List Char → List Char)
    (plug : ContentPlug) (slot : ContentSlot) : List MountEntry :=
  (slot.path .read).map (fun r => mountEntry expand plug slot r ["ro".toList]) ++
    (slot.path .write).map (fun w => mountEntry expand plug slot w [])

/-- The directories of a snap revision: under `/snap`, and its data directories. -/
def snapDirs (name revision : List Char) : List (List Char) :=
  [join [coreSnapMountDir, name, revision], join [snapDataDir, name, revision],
    join [snapDataDir, name, "common".toList]]

/-- A path that is one of the directories or below one. -/
def withinDirs (path : List Char) (dirs : List (List Char)) : Bool :=
  dirs.any fun d => path = d || (d ++ ['/']).isPrefixOf path

/-- A slot that reads `$SNAP1/etc` passes `BeforePrepareSlot`: `ValidatePathVariables` reads
the variable as `$SNAP`, stopping at the digit. `os.Expand` reads the name `SNAP1`, which
expands to nothing, so the mount source is `/etc`, outside the producer's directories. -/
theorem content_read_path_escapes_snap_dirs
    (expand : (List Char → List Char) → List Char → List Char) (hexpand : ExpandSpec expand) :
    let producer : SnapInfo := ⟨"producer".toList, [], "1".toList⟩
    let consumer : SnapInfo := ⟨"consumer".toList, [], "2".toList⟩
    let slot : ContentSlot := ⟨producer, none, some ["$SNAP1/etc".toList], none⟩
    let plug : ContentPlug := ⟨consumer, some "$SNAP/content".toList⟩
    beforePrepareSlot slot = .ok () ∧ beforePreparePlug plug = .ok () ∧
      mountConnectedPlug expand plug slot =
        [⟨"/etc".toList, "/snap/consumer/2/content".toList, ["bind".toList, "ro".toList]⟩] ∧
      withinDirs (clean "/etc".toList) (snapDirs producer.instanceName producer.revision) =
        false := by
  intro producer consumer slot plug
  -- `$SNAP1` is a name of its own for `os.Expand`, and `$SNAP` is followed by `/`
  have hsource : resolveSpecialVariable expand "$SNAP1/etc".toList producer .perspectiveOther =
      "/etc".toList := by
    rw [resolveSpecialVariable, if_pos (by decide), SnapInfo.expandSnapVariablesSetSnapMountDir,
      show "$SNAP1/etc".toList = '$' :: 'S' :: "NAP1".toList ++ "/etc".toList from rfl,
      hexpand.name _ _ _ _ (by decide) (by decide) (by decide), hexpand.plain _ _ (by decide)]
    decide
  have htarget : resolveSpecialVariable expand "$SNAP/content".toList consumer .perspectiveSelf =
      "/snap/consumer/2/content".toList := by
    rw [resolveSpecialVariable, if_pos (by decide), SnapInfo.expandSnapVariablesSetSnapMountDir,
      show "$SNAP/content".toList = '$' :: 'S' :: "NAP".toList ++ "/content".toList from rfl,
      hexpand.name _ _ _ _ (by decide) (by decide) (by decide), hexpand.plain _ _ (by decide)]
    decide
  refine ⟨by decide, by decide, ?_, by decide⟩
  simp only [mountConnectedPlug, mountEntry, sourceTarget, ContentSlot.path, slot, plug,
    Option.isSome_none, Bool.false_eq_true, reduceCtorEq, ↓reduceIte, Option.getD_some,
    Option.getD_none, List.map_cons, List.map_nil, List.append_nil, hsource, htarget]

theorem content_read_path_escapes_snap_dirs_by_expandLoop :
    let expand := fun mapping s => expandLoop mapping s none
    let producer : SnapInfo := ⟨"producer".toList, [], "1".toList⟩
    let consumer : SnapInfo := ⟨"consumer".toList, [], "2".toList⟩
    let slot : ContentSlot := ⟨producer, none, some ["$SNAP1/etc".toList], none⟩
    let plug : ContentPlug := ⟨consumer, some "$SNAP/content".toList⟩
    beforePrepareSlot slot = .ok () ∧ beforePreparePlug plug = .ok () ∧
      mountConnectedPlug expand plug slot =
        [⟨"/etc".toList, "/snap/consumer/2/content".toList, ["bind".toList, "ro".toList]⟩] ∧
      withinDirs (clean "/etc".toList) (snapDirs producer.instanceName producer.revision) =
        false :=
  content_read_path_escapes_snap_dirs _ expandLoop_spec

end Snapd.Interfaces.Content
