import Snapd.Lib.AssocList
import Snapd.Snap.Layout

/-! `asserts/snapasserts/validation_sets.go`: the combined constraints of several validation
sets on snaps and their components, the conflicts between them, and the check of installed
snaps against them. Go maps are association lists (`Lib/AssocList`), strings are character
lists, and a `snap.Revision` is its number `N`. A validation set keeps the fields `Add`
reads; the loader (`asserts/validation_set.go`) has already defaulted a missing snap presence
to `required`, so a presence read from a set is never `conflict`. -/

namespace Snapd.Snapasserts

/-- Go's `==` on strings, through which membership in a list of strings is decided. -/
local instance lawfulBEqString : LawfulBEq (List Char) := inferInstance

/-- `asserts.Presence`, with the value `presConflict` this package gives a snap or component
whose constraints cannot all hold. -/
inductive Presence
  | required
  | optional
  | invalid
  | conflict
  deriving DecidableEq, Repr

def unspecifiedRevision : Int := 0

def invalidPresRevision : Int := -1

/-- `asserts.ValidationSetComponent`, as the loader builds it. -/
structure ValidationSetComponent where
  presence : Presence
  revision : Int
  presence_ne : presence ≠ .conflict
  deriving DecidableEq

/-- `asserts.ValidationSetSnap`, as the loader builds it; the components are a map from
component names. -/
structure ValidationSetSnap where
  name : List Char
  snapID : List Char
  presence : Presence
  revision : Int
  components : List (List Char × ValidationSetComponent)
  presence_ne : presence ≠ .conflict
  deriving DecidableEq

/-- `asserts.ValidationSet`: its sequence key and its snaps. -/
structure ValidationSet where
  accountID : List Char
  name : List Char
  snaps : List ValidationSetSnap
  deriving DecidableEq

/-- `valSetKey`: `account-id/name`. -/
def valSetKey (valset : ValidationSet) : List Char := valset.accountID ++ '/' :: valset.name

/-- `naming.SnapRef`: a snap name and a snap id, either possibly empty. -/
structure SnapRef where
  name : List Char
  id : List Char
  deriving DecidableEq, Repr

structure ComponentRef where
  snapName : List Char
  componentName : List Char
  deriving DecidableEq, Repr

/-- `ComponentRef.String`: `snap+component`. -/
def ComponentRef.toString (cr : ComponentRef) : List Char := cr.snapName ++ '+' :: cr.componentName

structure RevConstraint where
  validationSetKey : List Char
  presence : Presence
  deriving DecidableEq, Repr

/-- `constraints`: what all the sets say of one snap or component, filed by revision, with
the revision `invalidPresRevision` for the sets that mark it invalid. -/
structure Constraints where
  name : List Char
  presence : Presence
  revisions : List (Int × List RevConstraint)
  snapRef : SnapRef
  compRef : Option ComponentRef
  deriving DecidableEq, Repr

structure SnapConstraints where
  constraints : Constraints
  componentConstraints : List (List Char × Constraints)
  deriving DecidableEq, Repr

/-- `ValidationSets`: the sets by key and the constraints by snap id. -/
structure ValidationSets where
  sets : List (List Char × ValidationSet)
  snaps : List (List Char × SnapConstraints)

def newValidationSets : ValidationSets := ⟨[], []⟩

def derivePresence (currentPresence incomingPresence : Presence) (revisions : Nat) : Presence :=
  if currentPresence = .conflict then .conflict
  else
    let currentPresence := if currentPresence = .optional then incomingPresence
      else currentPresence
    if currentPresence = incomingPresence ∨ incomingPresence = .optional then
      if 1 < revisions then
        -- different revisions required/invalid, or multiple optional at different revisions
        if currentPresence = .required then .conflict else .invalid
      else currentPresence
    -- we are left with a combo of required and invalid
    else .conflict

/-- The revision a constraint is filed under: `invalidPresRevision` for `invalid`. -/
def constraintRevision (presence : Presence) (revision : Int) : Int :=
  if presence = .invalid then invalidPresRevision else revision

/-- The lines that `addComponent` and `addSnap` share for constraints that exist already:
the new constraint is appended under its revision, and the presence derived again from the
number of distinct revisions other than `unspecifiedRevision`. -/
def Constraints.add (cs : Constraints) (rev : Int) (rc : RevConstraint) : Constraints :=
  let revisions := AssocList.appendAt cs.revisions rev rc
  -- this counts really different revisions or invalid
  let ndiff := revisions.length -
    if (AssocList.find revisions unspecifiedRevision).isSome then 1 else 0
  { cs with revisions := revisions, presence := derivePresence cs.presence rc.presence ndiff }

def SnapConstraints.addComponent (sc : SnapConstraints) (compName : List Char)
    (comp : ValidationSetComponent) (validationSetKey : List Char) : SnapConstraints :=
  let rev := constraintRevision comp.presence comp.revision
  let rc : RevConstraint := ⟨validationSetKey, comp.presence⟩
  let compRef : ComponentRef := ⟨sc.constraints.name, compName⟩
  match AssocList.find sc.componentConstraints compName with
  | none =>
    let cs : Constraints :=
      ⟨compName, comp.presence, [(rev, [rc])], sc.constraints.snapRef, some compRef⟩
    { sc with componentConstraints := AssocList.insert sc.componentConstraints compName cs }
  | some cs =>
    { sc with componentConstraints :=
        AssocList.insert sc.componentConstraints compName (cs.add rev rc) }

def SnapConstraints.addComponents (sc : SnapConstraints)
    (comps : List (List Char × ValidationSetComponent)) (validationSetKey : List Char) :
    SnapConstraints :=
  comps.foldl (fun sc c => sc.addComponent c.1 c.2 validationSetKey) sc

/-- `ValidationSets.addSnap`: a snap id seen for the first time keeps the name and reference
of the set that names it first. -/
def ValidationSets.addSnap (v : ValidationSets) (sn : ValidationSetSnap)
    (validationSetKey : List Char) : ValidationSets :=
  let rev := constraintRevision sn.presence sn.revision
  let rc : RevConstraint := ⟨validationSetKey, sn.presence⟩
  match AssocList.find v.snaps sn.snapID with
  | none =>
    let sc : SnapConstraints :=
      ⟨⟨sn.name, sn.presence, [(rev, [rc])], ⟨sn.name, sn.snapID⟩, none⟩, []⟩
    let sc := sc.addComponents sn.components validationSetKey
    { v with snaps := AssocList.insert v.snaps sn.snapID sc }
  | some sc =>
    let sc := sc.addComponents sn.components validationSetKey
    let sc := { sc with constraints := sc.constraints.add rev rc }
    { v with snaps := AssocList.insert v.snaps sn.snapID sc }

def ValidationSets.add (v : ValidationSets) (valset : ValidationSet) :
    Except String ValidationSets :=
  let k := valSetKey valset
  if (AssocList.find v.sets k).isSome then
    .error ("cannot add a second validation-set under \"" ++ String.ofList k ++ "\"")
  else
    .ok (valset.snaps.foldl (fun v sn => v.addSnap sn k)
      { v with sets := AssocList.insert v.sets k valset })

/-- `Add` of each set in turn on `NewValidationSets`, stopping at the first error. -/
def addAll (valsets : List ValidationSet) : Except String ValidationSets :=
  valsets.foldlM ValidationSets.add newValidationSets

/-- `conflictsError`: the keys of the sets in conflict, by revision. -/
structure ConflictsError where
  name : List Char
  containerType : List Char
  revisions : List (Int × List (List Char))
  deriving DecidableEq, Repr

/-- `whichSets` of `constraintsConflicts`: the sorted keys of the constraints with the given
presence, or of all of them for `dontCare`. -/
def whichSets (rcs : List RevConstraint) (presence : Option Presence) : List (List Char) :=
  Snap.sortStrings ((rcs.filter fun rc => presence.all (rc.presence = ·)).map
    (·.validationSetKey))

def constraintsConflicts (c : Constraints) : Option ConflictsError :=
  if c.presence ≠ .conflict then none
  else
    let byRev := c.revisions.filterMap fun (r, rcs) =>
      let pres := if r = invalidPresRevision then some .invalid
        else if r = unspecifiedRevision then some .required else none
      let which := whichSets rcs pres
      if which ≠ [] then some (r, which) else none
    match c.compRef with
    | some compRef => some ⟨compRef.toString, "component".toList, byRev⟩
    | none => some ⟨c.name, "snap".toList, byRev⟩

def SnapConstraints.conflicts (c : SnapConstraints) :
    Option ConflictsError × List (List Char × ConflictsError) :=
  (constraintsConflicts c.constraints,
    c.componentConstraints.filterMap fun (_, cstrs) =>
      (constraintsConflicts cstrs).map fun e => (cstrs.name, e))

structure ValidationSetsConflictError where
  sets : List (List Char × Option ValidationSet)
  snaps : List (List Char × ConflictsError)
  components : List (List Char × List (List Char × ConflictsError))

/-- The variables of the loop of `Conflict`. -/
structure ConflictState where
  sets : List (List Char × Option ValidationSet)
  snaps : List (List Char × ConflictsError)
  components : List (List Char × List (List Char × ConflictsError))

/-- `sets[valsetKey] = v.sets[valsetKey]` for every key of a conflict. -/
def addConflictSets (v : ValidationSets) (sets : List (List Char × Option ValidationSet))
    (e : ConflictsError) : List (List Char × Option ValidationSet) :=
  e.revisions.foldl (fun sets (_, valsetKeys) => valsetKeys.foldl
    (fun sets valsetKey => AssocList.insert sets valsetKey (AssocList.find v.sets valsetKey))
    sets) sets

/-- One round of the inner loop of `Conflict`, over the conflicts of the components of the
snap with id `snapID`. -/
def componentConflictStep (v : ValidationSets) (snapID : List Char) (st : ConflictState)
    (conflict : List Char × ConflictsError) : ConflictState :=
  let byName := AssocList.insert ((AssocList.find st.components snapID).getD []) conflict.1
    conflict.2
  { st with
    components := AssocList.insert st.components snapID byName
    sets := addConflictSets v st.sets conflict.2 }

/-- One round of the loop of `Conflict`, over the constraints of one snap. -/
def conflictStep (v : ValidationSets) (st : ConflictState)
    (entry : List Char × SnapConstraints) : ConflictState :=
  let (snapID, snConstrs) := entry
  let (snapConflicts, componentConflicts) := snConstrs.conflicts
  let st := match snapConflicts with
    | some e =>
      { st with
        snaps := AssocList.insert st.snaps snapID e
        sets := addConflictSets v st.sets e }
    | none => st
  let st := if componentConflicts ≠ [] then
      { st with components := AssocList.insert st.components snapID [] }
    else st
  componentConflicts.foldl (componentConflictStep v snapID) st

def ValidationSets.conflict (v : ValidationSets) : Option ValidationSetsConflictError :=
  let st := v.snaps.foldl (conflictStep v) ⟨[], [], []⟩
  if st.snaps ≠ [] ∨ st.components ≠ [] then some ⟨st.sets, st.snaps, st.components⟩
  else none

/-- `naming.SnapSet`, over references `ref` reads: the members by id and by name, and how
many there are. -/
structure SnapSet (α : Type) where
  byID : List (List Char × α)
  byName : List (List Char × α)
  n : Nat

section SnapSet

variable {α : Type} (ref : α → SnapRef)

def SnapSet.lookup (s : SnapSet α) (which : SnapRef) : Option α :=
  let byID := if which.id ≠ [] then AssocList.find s.byID which.id else none
  match byID with
  | some r => some r
  | none =>
    match AssocList.find s.byName which.name with
    | none => none
    | some r => if (ref r).id ≠ [] ∧ which.id ≠ [] then none else some r

def SnapSet.contains (s : SnapSet α) (which : SnapRef) : Bool := (s.lookup ref which).isSome

/-- `SnapSet.Add`: ids and names already in the set are ignored. -/
def SnapSet.add (s : SnapSet α) (r : α) : SnapSet α :=
  if s.contains ref (ref r) then s
  else
    let byID := if (ref r).id ≠ [] then AssocList.insert s.byID (ref r).id r else s.byID
    let byName := if (ref r).name ≠ [] then AssocList.insert s.byName (ref r).name r
      else s.byName
    let inc := if (ref r).id ≠ [] ∨ (ref r).name ≠ [] then 1 else 0
    ⟨byID, byName, s.n + inc⟩

end SnapSet

structure InstalledComponent where
  compRef : ComponentRef
  revision : Int
  deriving DecidableEq, Repr

structure InstalledSnap where
  snapRef : SnapRef
  revision : Int
  components : List InstalledComponent
  deriving DecidableEq, Repr

abbrev InstalledSnapSet := SnapSet InstalledSnap

def newInstalledSnapSet (snaps : List InstalledSnap) : InstalledSnapSet :=
  snaps.foldl (SnapSet.add InstalledSnap.snapRef) ⟨[], [], 0⟩

def InstalledSnapSet.lookup (s : InstalledSnapSet) (r : SnapRef) : Option InstalledSnap :=
  SnapSet.lookup InstalledSnap.snapRef s r

def InstalledSnapSet.contains (s : InstalledSnapSet) (r : SnapRef) : Bool :=
  SnapSet.contains InstalledSnap.snapRef s r

def InstalledSnapSet.lookupComponent (s : InstalledSnapSet) (snapRef : SnapRef)
    (compRef : ComponentRef) : Option InstalledComponent :=
  (s.lookup snapRef).bind fun sn => sn.components.find? (·.compRef = compRef)

inductive ConstraintConformity
  | valid
  | invalid
  | missing
  | wrongRevision
  deriving DecidableEq, Repr

/-- `checkConstraintConformity`: the revision `0` (unset) is a target that is not
installed. -/
def checkConstraintConformity (installedRev requiredRev : Int) (presence : Presence) :
    ConstraintConformity :=
  let installed := installedRev ≠ 0
  let notRequired := presence = .optional ∨ presence = .invalid
  if ¬installed ∧ notRequired then .valid
  else if installed ∧ presence = .invalid then .invalid
  else if installed then
    if requiredRev ≠ unspecifiedRevision ∧ requiredRev ≠ installedRev then .wrongRevision
    else .valid
  else .missing

/-- `set[key] = true` on a set of keys. -/
def setAdd (set : List (List Char)) (key : List Char) : List (List Char) :=
  if key ∈ set then set else set ++ [key]

/-- `setToLists` of `checkConstraints`: the sorted keys. -/
def setToLists (set : List (List Char)) : List (List Char) := Snap.sortStrings set

/-- The variables of the loop of `checkConstraints`. -/
structure ConformitySets where
  invalidSet : List (List Char)
  missingSets : List (Int × List (List Char))
  wrongrevSets : List (Int × List (List Char))

/-- One round of the inner loop of `checkConstraints`. -/
def conformityStep (installedRev requiredRev : Int) (presence : Presence) (st : ConformitySets)
    (rc : RevConstraint) : ConformitySets :=
  match checkConstraintConformity installedRev requiredRev presence with
  | .invalid => { st with invalidSet := setAdd st.invalidSet rc.validationSetKey }
  | .missing =>
    let set := setAdd ((AssocList.find st.missingSets requiredRev).getD []) rc.validationSetKey
    { st with missingSets := AssocList.insert st.missingSets requiredRev set }
  | .wrongRevision =>
    let set := setAdd ((AssocList.find st.wrongrevSets requiredRev).getD []) rc.validationSetKey
    { st with wrongrevSets := AssocList.insert st.wrongrevSets requiredRev set }
  | .valid => st

/-- `checkConstraints`: the keys of the sets whose constraints the installed revision breaks,
as invalid, missing by required revision and wrong revision by required revision. The
source's error for a conformity outside the four is unreachable and left out. -/
def checkConstraints (cs : Constraints) (installedRev : Int) :
    List (List Char) × List (Int × List (List Char)) × List (Int × List (List Char)) :=
  let st := cs.revisions.foldl (fun st (requiredRev, revCstr) =>
    revCstr.foldl (conformityStep installedRev requiredRev cs.presence) st) ⟨[], [], []⟩
  (setToLists st.invalidSet, st.missingSets.map fun (rev, set) => (rev, setToLists set),
    st.wrongrevSets.map fun (rev, set) => (rev, setToLists set))

/-- What `checkManyConstraints` returns: by name of the constrained snap or component, the
invalid, missing and wrong-revision keys. -/
structure ManyConformity where
  invalid : List (List Char × List (List Char))
  missing : List (List Char × List (Int × List (List Char)))
  wrongrev : List (List Char × List (Int × List (List Char)))

/-- One round of the loop of `checkManyConstraints`. -/
def checkManyStep (installedRevision : Constraints → Except String Int)
    (ignore : List Char → Bool) (acc : ManyConformity) (cstrs : Constraints) :
    Except String ManyConformity := do
  let installedRev ← installedRevision cstrs
  let isInstalled := installedRev ≠ 0
  if isInstalled ∧ ignore cstrs.name then return acc
  let (i, m, w) := checkConstraints cstrs installedRev
  return {
    invalid := if i ≠ [] then AssocList.insert acc.invalid cstrs.name i else acc.invalid
    missing := if m ≠ [] then AssocList.insert acc.missing cstrs.name m else acc.missing
    wrongrev := if w ≠ [] then AssocList.insert acc.wrongrev cstrs.name w else acc.wrongrev }

/-- `checkManyConstraints`; a `nil` ignore map is the map that ignores nothing. -/
def checkManyConstraints (scs : List Constraints)
    (installedRevision : Constraints → Except String Int) (ignore : List Char → Bool) :
    Except String ManyConformity :=
  scs.foldlM (checkManyStep installedRevision ignore) ⟨[], [], []⟩

structure ValidationSetsComponentValidationError where
  invalidComponents : List (List Char × List (List Char))
  missingComponents : List (List Char × List (Int × List (List Char)))
  wrongRevisionComponents : List (List Char × List (Int × List (List Char)))

/-- `componentInstalled` of `checkInstalledComponents`. -/
def componentInstalled (installedSnaps : InstalledSnapSet) (cstrs : Constraints) :
    Except String Int :=
  match cstrs.compRef with
  | none => .error "internal error: component constraint should have component and snap refs"
  | some compRef =>
    match installedSnaps.lookupComponent cstrs.snapRef compRef with
    | none => .ok 0
    | some comp => .ok comp.revision

/-- One round of the loop of `checkInstalledComponents`, over one snap's constraints. -/
def checkComponentsStep (installedSnaps : InstalledSnapSet) (ignore : List Char → Bool)
    (missingSnaps : List Char → Bool)
    (vcerrs : List (List Char × ValidationSetsComponentValidationError))
    (sc : SnapConstraints) :
    Except String (List (List Char × ValidationSetsComponentValidationError)) := do
  -- a snap that is ignored, or not installed and not reported missing, has its components
  -- left unchecked
  if ignore sc.constraints.name ∨
      (!installedSnaps.contains sc.constraints.snapRef ∧ !missingSnaps sc.constraints.name) then
    return vcerrs
  let r ← checkManyConstraints (sc.componentConstraints.map (·.2))
    (componentInstalled installedSnaps) fun _ => false
  if r.invalid ≠ [] ∨ r.missing ≠ [] ∨ r.wrongrev ≠ [] then
    return AssocList.insert vcerrs sc.constraints.name ⟨r.invalid, r.missing, r.wrongrev⟩
  return vcerrs

def ValidationSets.checkInstalledComponents (v : ValidationSets)
    (installedSnaps : InstalledSnapSet) (ignore missingSnaps : List Char → Bool) :
    Except String (List (List Char × ValidationSetsComponentValidationError)) :=
  (v.snaps.map (·.2)).foldlM (checkComponentsStep installedSnaps ignore missingSnaps) []

structure ValidationSetsValidationError where
  missingSnaps : List (List Char × List (Int × List (List Char)))
  invalidSnaps : List (List Char × List (List Char))
  wrongRevisionSnaps : List (List Char × List (Int × List (List Char)))
  sets : List (List Char × ValidationSet)
  componentErrors : List (List Char × ValidationSetsComponentValidationError)

/-- An error of `CheckInstalledSnaps`: an internal error or a validation error. -/
inductive CheckError
  | internal (msg : String)
  | validation (e : ValidationSetsValidationError)

/-- `snapInstalled` of `CheckInstalledSnaps`: the installed revision, `0` when the snap is
not installed. -/
def snapInstalled (installed : InstalledSnapSet) (cstrs : Constraints) : Int :=
  match installed.lookup cstrs.snapRef with
  | none => 0
  | some sn => sn.revision

def ValidationSets.checkInstalledSnaps (v : ValidationSets) (snaps : List InstalledSnap)
    (ignoreValidation : List Char → Bool) : Except CheckError Unit :=
  let installed := newInstalledSnapSet snaps
  match checkManyConstraints (v.snaps.map (·.2.constraints)) (.ok ∘ snapInstalled installed)
      ignoreValidation with
  | .error msg => .error (.internal msg)
  | .ok r =>
    let missingSnapNames := fun name => (AssocList.find r.missing name).isSome
    match v.checkInstalledComponents installed ignoreValidation missingSnapNames with
    | .error msg => .error (.internal msg)
    | .ok vcerrs =>
      if r.invalid ≠ [] ∨ r.missing ≠ [] ∨ r.wrongrev ≠ [] ∨ vcerrs ≠ [] then
        .error (.validation ⟨r.missing, r.invalid, r.wrongrev, v.sets, vcerrs⟩)
      else .ok ()

end Snapd.Snapasserts
