import Snapd.Interfaces.Content
import Snapd.Lib.AssocList

/-! Layouts of a snap (`snap/validate.go`): each layout puts a bind mount, a tmpfs or a symlink
at a path of the snap's mount namespace. `ValidateLayoutAll` checks the layouts of a snap in
the order of their unexpanded paths, each against the constraints of the ones before it.
The snap name and revision that `$SNAP` and its siblings expand to come from
`Content.SnapInfo`, and `os.Expand` is `GoPath.osExpand`. -/

namespace Snapd.Snap

/-- Go's `==` on strings, through which membership in a list of strings is decided. -/
local instance lawfulBEqString : LawfulBEq (List Char) := inferInstance

open GoPath Naming Interfaces.Content

/-- Go's `<` on strings: the order of the bytes, which is the order of the code points. -/
def stringLess : List Char → List Char → Bool
  | [], [] => false
  | [], _ :: _ => true
  | _ :: _, [] => false
  | a :: as, b :: bs => a < b || (a = b && stringLess as bs)

/-- `sort.Strings`, which puts distinct strings in the one increasing order. -/
def sortStrings (l : List (List Char)) : List (List Char) :=
  l.insertionSort fun a b => !stringLess b a

@[simp] theorem stringLess_self (a : List Char) : stringLess a a = false := by
  induction a with
  | nil => rfl
  | cons c a ih => simp [stringLess, ih]

theorem stringLess_trans {a b c : List Char} (hab : stringLess a b = true)
    (hbc : stringLess b c = true) : stringLess a c = true := by
  induction a generalizing b c with
  | nil =>
    cases b with
    | nil => simp [stringLess] at hab
    | cons y b =>
      cases c with
      | nil => simp [stringLess] at hbc
      | cons z c => rfl
  | cons x a ih =>
    cases b with
    | nil => simp [stringLess] at hab
    | cons y b =>
      cases c with
      | nil => simp [stringLess] at hbc
      | cons z c =>
        simp only [stringLess, Bool.or_eq_true, Bool.and_eq_true, decide_eq_true_eq] at hab hbc ⊢
        rcases hab with hxy | ⟨rfl, hab⟩ <;> rcases hbc with hyz | ⟨rfl, hbc⟩
        · exact .inl (Char.lt_trans hxy hyz)
        · exact .inl hxy
        · exact .inl hyz
        · exact .inr ⟨rfl, ih hab hbc⟩

theorem char_lt_trichotomy (x y : Char) : x < y ∨ x = y ∨ y < x := by
  by_cases hxy : x < y
  · exact .inl hxy
  · by_cases hyx : y < x
    · exact .inr (.inr hyx)
    · exact .inr (.inl (Char.le_antisymm (Char.not_lt.mp hyx) (Char.not_lt.mp hxy)))

theorem stringLess_asymm {a b : List Char} (hab : stringLess a b = true) :
    stringLess b a = false := by
  rw [Bool.eq_false_iff]
  intro hba
  have := stringLess_trans hab hba
  simp at this

theorem stringLess_total {a b : List Char} (h : a ≠ b) :
    stringLess a b = true ∨ stringLess b a = true := by
  induction a generalizing b with
  | nil =>
    cases b with
    | nil => exact absurd rfl h
    | cons y b => exact .inl rfl
  | cons x a ih =>
    cases b with
    | nil => exact .inr rfl
    | cons y b =>
      simp only [stringLess, Bool.or_eq_true, Bool.and_eq_true, decide_eq_true_eq]
      rcases char_lt_trichotomy x y with hxy | rfl | hyx
      · exact .inl (.inl hxy)
      · have hab : a ≠ b := fun hab => h (by rw [hab])
        rcases ih hab with hlt | hlt
        · exact .inl (.inr ⟨rfl, hlt⟩)
        · exact .inr (.inr ⟨rfl, hlt⟩)
      · exact .inr (.inl hyx)

theorem stringLess_of_isPrefixOf_eq_false {p k : List Char} (h : p.isPrefixOf k = true) :
    stringLess k p = false := by
  induction p generalizing k with
  | nil => cases k <;> rfl
  | cons x p ih =>
    cases k with
    | nil => simp at h
    | cons y k =>
      simp only [List.isPrefixOf, Bool.and_eq_true, beq_iff_eq] at h
      obtain ⟨rfl, h⟩ := h
      simp [stringLess, ih h]

theorem stringLess_of_not_isPrefixOf {p k q : List Char} (hk : p.isPrefixOf k = false)
    (hle : stringLess k p = false) (hq : p.isPrefixOf q = true) : stringLess q k = true := by
  induction p generalizing k q with
  | nil => simp at hk
  | cons x p ih =>
    cases k with
    | nil => simp [stringLess] at hle
    | cons y k =>
      cases q with
      | nil => simp at hq
      | cons z q =>
        simp only [List.isPrefixOf, Bool.and_eq_true, beq_iff_eq] at hq
        obtain ⟨rfl, hq⟩ := hq
        rcases char_lt_trichotomy x y with hxy | rfl | hyx
        · simp [stringLess, hxy]
        · have hk' : p.isPrefixOf k = false := by simpa [List.isPrefixOf] using hk
          have hle' : stringLess k p = false := by simpa [stringLess] using hle
          simp [stringLess, ih hk' hle' hq]
        · simp [stringLess, hyx] at hle

theorem sortStrings_pairwise (l : List (List Char)) :
    (sortStrings l).Pairwise fun a b => stringLess b a = false := by
  have htotal : Std.Total fun a b : List Char => (!stringLess b a) = true := by
    refine ⟨fun a b => ?_⟩
    by_cases hab : stringLess a b = true
    · exact .inl (by simp [stringLess_asymm hab])
    · exact .inr (by simpa using hab)
  have htrans : IsTrans (List Char) fun a b => (!stringLess b a) = true := by
    refine ⟨fun a b c hab hbc => ?_⟩
    simp only [Bool.not_eq_eq_eq_not, Bool.not_true] at hab hbc ⊢
    by_contra hca
    rw [Bool.not_eq_false] at hca
    by_cases hba : a = b
    · subst hba
      rw [hca] at hbc
      cases hbc
    · rcases stringLess_total hba with hlt | hlt
      · rw [stringLess_trans hca hlt] at hbc
        cases hbc
      · rw [hlt] at hab
        cases hab
  have hsorted := List.pairwise_insertionSort (fun a b : List Char => (!stringLess b a) = true) l
  exact hsorted.imp fun h => by simpa using h

theorem sortStrings_perm (l : List (List Char)) : (sortStrings l).Perm l :=
  List.perm_insertionSort _ l

theorem sortStrings_pairwise_lt {l : List (List Char)} (h : l.Nodup) :
    (sortStrings l).Pairwise fun a b => stringLess a b = true := by
  have hnodup : (sortStrings l).Nodup := (sortStrings_perm l).nodup_iff.mpr h
  refine (List.Pairwise.and (sortStrings_pairwise l) hnodup).imp ?_
  rintro a b ⟨hba, hab⟩
  rcases stringLess_total hab with hlt | hlt
  · exact hlt
  · rw [hlt] at hba
    cases hba

structure Layout where
  path : List Char
  bind : List Char
  bindFile : List Char
  type : List Char
  user : List Char
  group : List Char
  mode : Nat
  symlink : List Char
  deriving DecidableEq, Repr

/-- What `ValidateLayoutAll` reads of a `snap.Info`: the names that the snap variables expand
with, and the layouts by path. -/
structure Info where
  snap : SnapInfo
  layout : List (List Char × Layout)

/-- `Info.ExpandSnapVariables`: seen from the snap itself, with `/snap` as the mount
directory. -/
def Info.expandSnapVariables (info : Info) (path : List Char) : List Char :=
  info.snap.expandSnapVariablesSetSnapMountDir osExpand path coreSnapMountDir .perspectiveSelf

def isAbsAndClean (path : List Char) : Bool :=
  ("/".toList.isPrefixOf path || "$".toList.isPrefixOf path) && clean path = path

/-- `LayoutConstraint`: a mounted tree, a bind-mounted file or a symlink, each keeping the
paths at and below it off limits. -/
inductive LayoutConstraint where
  | mountedTree (mountPoint : List Char)
  | mountedFile (mountPoint : List Char)
  | symlinkFile (mountPoint : List Char)
  deriving DecidableEq, Repr

/-- The path of a constraint, which `%q` prints. -/
def LayoutConstraint.mountPoint : LayoutConstraint → List Char
  | .mountedTree p | .mountedFile p | .symlinkFile p => p

/-- `IsOffLimits`, which the three kinds of constraint define alike. -/
def LayoutConstraint.isOffLimits (c : LayoutConstraint) (path : List Char) : Bool :=
  (c.mountPoint ++ ['/']).isPrefixOf path || path = c.mountPoint

def Layout.constraint (info : Info) (layout : Layout) : LayoutConstraint :=
  let path := info.expandSnapVariables layout.path
  if layout.symlink ≠ [] then .symlinkFile path
  else if layout.bindFile ≠ [] then .mountedFile path
  else .mountedTree path

def layoutRejectionList : List (List Char) :=
  ["/dev", "/proc", "/sys", "/media", "/run", "/var/run", "/tmp", "/var/lib/snapd",
    "/lib/firmware", "/usr/lib/firmware", "/lib/modules", "/usr/lib/modules", "/var/snap",
    "/home", "/boot", "/lost+found"].map String.toList

/-- The check that a bind mount source or a symlink target lies in `$SNAP`, `$SNAP_DATA` or
`$SNAP_COMMON`, as prefixes of the expanded text. -/
def inSnapDirs (info : Info) (path : List Char) : Bool :=
  (info.expandSnapVariables "$SNAP".toList).isPrefixOf path ||
    (info.expandSnapVariables "$SNAP_DATA".toList).isPrefixOf path ||
    (info.expandSnapVariables "$SNAP_COMMON".toList).isPrefixOf path

/-- The checks of `ValidateLayout` on the source of a bind mount. -/
def validateMountSource (info : Info) (layout : Layout) : Except String Unit := do
  let mountSource := layout.bind ++ layout.bindFile
  match validatePathVariables mountSource with
  | .error e => throw ("layout " ++ quoted layout.path ++ " uses invalid bind mount source " ++
      quoted mountSource ++ ": " ++ e)
  | .ok () => pure ()
  let mountSource := info.expandSnapVariables mountSource
  if !isAbsAndClean mountSource then
    throw ("layout " ++ quoted layout.path ++ " uses invalid bind mount source " ++
      quoted mountSource ++ ": must be absolute and clean")
  if !inSnapDirs info mountSource then
    throw ("layout " ++ quoted layout.path ++ " uses invalid bind mount source " ++
      quoted mountSource ++ ": must start with $SNAP, $SNAP_DATA or $SNAP_COMMON")
  match validateNoAppArmorRegexp mountSource with
  | .error e => throw ("layout " ++ quoted layout.path ++ " uses invalid mount source: " ++ e)
  | .ok () => pure ()

/-- The checks of `ValidateLayout` on the old name of a symlink. -/
def validateSymlink (info : Info) (layout : Layout) : Except String Unit := do
  let oldname := layout.symlink
  match validatePathVariables oldname with
  | .error e => throw ("layout " ++ quoted layout.path ++ " uses invalid symlink old name " ++
      quoted oldname ++ ": " ++ e)
  | .ok () => pure ()
  let oldname := info.expandSnapVariables oldname
  if !isAbsAndClean oldname then
    throw ("layout " ++ quoted layout.path ++ " uses invalid symlink old name " ++
      quoted oldname ++ ": must be absolute and clean")
  if !inSnapDirs info oldname then
    throw ("layout " ++ quoted layout.path ++ " uses invalid symlink old name " ++
      quoted oldname ++ ": must start with $SNAP, $SNAP_DATA or $SNAP_COMMON")
  match validateNoAppArmorRegexp oldname with
  | .error e => throw ("layout " ++ quoted layout.path ++ " uses invalid symlink: " ++ e)
  | .ok () => pure ()

/-- `ValidateLayout`: the mount point is absolute and clean once expanded, outside the
rejected trees and the layouts before it; one kind of layout is given, with its source or
target in the snap's directories. -/
def validateLayout (info : Info) (layout : Layout) (constraints : List LayoutConstraint) : Except String Unit := do
  let mountPoint := layout.path
  if mountPoint = [] then throw "layout cannot use an empty path"
  match validatePathVariables mountPoint with
  | .error e => throw ("layout " ++ quoted layout.path ++ " uses invalid mount point: " ++ e)
  | .ok () => pure ()
  let mountPoint := info.expandSnapVariables mountPoint
  if !isAbsAndClean mountPoint then
    throw ("layout " ++ quoted layout.path ++ " uses invalid mount point: must be absolute and clean")
  if layoutRejectionList.any fun path => (LayoutConstraint.mountedTree path).isOffLimits mountPoint then
    throw ("layout " ++ quoted layout.path ++ " in an off-limits area")
  match constraints.find? (·.isOffLimits mountPoint) with
  | some c => throw ("layout " ++ quoted layout.path ++ " underneath prior layout item " ++
      quoted c.mountPoint)
  | none => pure ()
  let nused := [layout.bind, layout.bindFile, layout.type, layout.symlink].countP (· ≠ [])
  if nused ≠ 1 then
    throw ("layout " ++ quoted layout.path ++ " must define a bind mount, a filesystem mount or a symlink")
  if layout.bind ≠ [] ∨ layout.bindFile ≠ [] then validateMountSource info layout
  if layout.type ≠ [] ∧ layout.type ≠ "tmpfs".toList then
    throw ("layout " ++ quoted layout.path ++ " uses invalid filesystem " ++ quoted layout.type)
  if layout.symlink ≠ [] then validateSymlink info layout
  if layout.user ≠ "root".toList ∧ layout.user ≠ [] then
    throw ("layout " ++ quoted layout.path ++ " uses invalid user " ++ quoted layout.user)
  if layout.group ≠ "root".toList ∧ layout.group ≠ [] then
    throw ("layout " ++ quoted layout.path ++ " uses invalid group " ++ quoted layout.group)
  if layout.mode &&& 0o1777 ≠ layout.mode then
    -- `%#o`: the mode in octal after a `0`
    throw ("layout " ++ quoted layout.path ++ " uses invalid mode 0" ++
      String.ofList (Nat.toDigits 8 layout.mode))

/-- The top-level directories a layout may be under. -/
def layoutTopLevelDirs : List (List Char) :=
  ["bin", "etc", "lib", "lib64", "meta", "mnt", "opt", "root", "sbin", "snap", "srv", "usr",
    "var", "writable"].map String.toList

/-- `strings.SplitN(path, "/", 3)` -/
def splitN3 (path : List Char) : List (List Char) :=
  match path.splitOn '/' with
  | a :: b :: c :: rest => [a, b, ['/'].intercalate (c :: rest)]
  | parts => parts

/-- The first loop of `ValidateLayoutAll`: no layout is relative or makes a new top-level
directory. -/
def validateTopLevel (info : Info) (layout : Layout) : Except String Unit := do
  let cleanPathSrc := info.expandSnapVariables (clean layout.path)
  match validateNoAppArmorRegexp layout.path with
  | .error e => throw ("invalid layout path: " ++ e)
  | .ok () => pure ()
  match splitN3 cleanPathSrc with
  | [e0, e1] | [e0, e1, _] =>
    if e0 ≠ [] then throw ("layout " ++ quoted layout.path ++ " is a relative filename")
    if e1 ≠ [] ∧ e1 ∉ layoutTopLevelDirs then
      throw ("layout " ++ quoted layout.path ++ " defines a new top-level directory " ++
        quoted ('/' :: e1))
  | _ => pure ()

/-- The second loop of `ValidateLayoutAll`, over the sorted paths: a source is used as a
directory or as a file, not both; the kinds seen so far by expanded source. -/
def validateSourceKinds (info : Info) (paths : List (List Char)) : Except String Unit :=
  let step (kinds : List (List Char × List Char)) (path : List Char) :
      Except String (List (List Char × List Char)) := do
    let layout := (AssocList.find info.layout path).getD ⟨[], [], [], [], [], [], 0, []⟩
    let kinds ← if layout.bind ≠ [] then do
        let sourcePath := info.expandSnapVariables layout.bind
        if (AssocList.find kinds sourcePath).any (· ≠ "dir".toList) then
          throw ("layout " ++ quoted layout.path ++ " refers to directory " ++
            quoted layout.bind ++ " but another layout treats it as file")
        pure (AssocList.insert kinds sourcePath "dir".toList)
      else pure kinds
    if layout.bindFile ≠ [] then do
      let sourcePath := info.expandSnapVariables layout.bindFile
      if (AssocList.find kinds sourcePath).any (· ≠ "file".toList) then
        throw ("layout " ++ quoted layout.path ++ " refers to file " ++
          quoted layout.bindFile ++ " but another layout treats it as a directory")
      pure (AssocList.insert kinds sourcePath "file".toList)
    else pure kinds
  do let _ ← paths.foldlM step []

def validateLayoutAll (info : Info) :
    Except String Unit := do
  let paths := sortStrings (info.layout.map (·.1))
  info.layout.forM fun (_, layout) => validateTopLevel info layout
  validateSourceKinds info paths
  let thisSnapMntDir := join ["/snap/".toList, info.snap.snapName]
  match paths.find? fun path => "/snap/".toList.isPrefixOf path && !thisSnapMntDir.isPrefixOf path with
  | some path => throw ("layout " ++ quoted path ++
      " defines a layout in space belonging to another snap")
  | none => pure ()
  let _ ← paths.foldlM (fun constraints path => do
      let layout := (AssocList.find info.layout path).getD ⟨[], [], [], [], [], [], 0, []⟩
      validateLayout info layout constraints
      pure (constraints ++ [layout.constraint info])) []

/-- A tmpfs layout at `path`. -/
def tmpfsLayout (path : List Char) : Layout := ⟨path, [], [], "tmpfs".toList, [], [], 0, []⟩

/-- Revision 1 of the snap `name`, with a tmpfs at `$SNAP/foo/bar` and at `/snap/name/1/foo`,
one at `/snap/namex/bin`, and `/opt/data` bound to `/snap/name/10/data`. -/
def nestedLayoutsInfo : Info :=
  ⟨⟨"name".toList, [], "1".toList⟩,
    [("$SNAP/foo/bar".toList, tmpfsLayout "$SNAP/foo/bar".toList),
      ("/opt/data".toList, ⟨"/opt/data".toList, "/snap/name/10/data".toList, [], [], [], [], 0, []⟩),
      ("/snap/name/1/foo".toList, tmpfsLayout "/snap/name/1/foo".toList),
      ("/snap/namex/bin".toList, tmpfsLayout "/snap/namex/bin".toList)]⟩

/-- `$` sorts before `/`, so `$SNAP/foo/bar` is checked first and nothing is there to stop it;
`/snap/name/1/foo` then only meets the constraint `/snap/name/1/foo/bar`, which lies below it.
The check of other snaps' space and the check of bind sources test prefixes without a slash:
`/snap/namex/bin` starts with `/snap/name`, and `/snap/name/10/data` with `$SNAP`, that is
`/snap/name/1`. All four layouts pass. -/
theorem layouts_nest_and_leave_snap_space :
    validateLayoutAll nestedLayoutsInfo = .ok () ∧
    nestedLayoutsInfo.expandSnapVariables "$SNAP/foo/bar".toList = "/snap/name/1/foo/bar".toList ∧
    (nestedLayoutsInfo.expandSnapVariables "/snap/name/1/foo".toList ++ ['/']).isPrefixOf
      (nestedLayoutsInfo.expandSnapVariables "$SNAP/foo/bar".toList) = true ∧
    "/snap/namex/".toList.isPrefixOf
      (nestedLayoutsInfo.expandSnapVariables "/snap/namex/bin".toList) = true ∧
    withinDirs (nestedLayoutsInfo.expandSnapVariables "/snap/name/10/data".toList)
      (snapDirs "name".toList "1".toList) = false := by
  decide

end Snapd.Snap
