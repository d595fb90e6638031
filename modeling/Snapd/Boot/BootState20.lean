import Mathlib.Data.String.Basic

/-! The base snap's part of the UC20 boot state (boot/bootstate20.go). The `base`, `try_base`
and `base_status` fields of the modeenv are all that snapd and the initramfs share: snapd sets a
new base to try (`setNext`) and marks a boot good (`markSuccessful`), and at each boot the
initramfs picks the base to mount and moves the status on (`selectAndCommitSnapInitramfsMount`).
The functions shared with the kernel (`genericSetNext`, `selectSuccessfulBootSnap`,
`genericInitramfsSelectSnap`) take what the boot state's `revisionsFromModeenv` gives. -/

namespace Snapd.Boot

/-- `base_status`: `DefaultStatus` (""), `TryStatus` ("try"), `TryingStatus` ("trying"), or any
other text found in the modeenv. -/
inductive BootStatus
  | defaultStatus
  | tryStatus
  | tryingStatus
  | other (s : String)
  deriving DecidableEq, Repr

/-- The base fields of the modeenv. -/
structure Modeenv where
  base : String
  tryBase : String
  baseStatus : BootStatus
  deriving DecidableEq, Repr

/-- `snap.ParsePlaceInfoFromSnapFileName` and `PlaceInfo.Filename` on snaps `σ`, a base snap
being its name and revision. A file name made by `Filename` is never empty and parses back to
its snap. -/
structure SnapFiles (σ : Type) where
  filename : σ → String
  parse : String → Except String σ
  parse_filename : ∀ sn, parse (filename sn) = .ok sn
  filename_ne_empty : ∀ sn, filename sn ≠ ""

theorem SnapFiles.filename_injective {σ : Type} (F : SnapFiles σ) :
    Function.Injective F.filename := by
  intro a b h
  have hparse : (Except.ok a : Except String σ) = .ok b := by
    rw [← F.parse_filename a, ← F.parse_filename b, h]
  exact Except.ok.inj hparse

/-- What `revisionsFromModeenv` returns. A try snap that cannot be parsed still gives the
current snap, with which the initramfs goes on. -/
inductive Revisions (σ : Type)
  | ok (curSnap : σ) (trySnap : Option σ) (snapTryStatus : BootStatus)
  | trySnapError (curSnap : σ) (msg : String)
  | error (msg : String)

variable {σ : Type}

def revisionsFromModeenv (F : SnapFiles σ) (modeenv : Modeenv) : Revisions σ :=
  if modeenv.base = "" then
    .error "cannot get snap revision: modeenv base boot variable is empty"
  else
    match F.parse modeenv.base with
    | .error e => .error ("cannot get snap revision: modeenv base boot variable is invalid: " ++ e)
    | .ok bootSn =>
      -- a try base is only read when a try is under way
      if modeenv.baseStatus ≠ .defaultStatus ∧ modeenv.tryBase ≠ "" then
        match F.parse modeenv.tryBase with
        | .error e => .trySnapError bootSn
            ("cannot get snap revision: modeenv try base boot variable is invalid: " ++ e)
        | .ok tryBootSn => .ok bootSn (some tryBootSn) modeenv.baseStatus
      else .ok bootSn none modeenv.baseStatus

section Revisions

variable (F : SnapFiles σ) {modeenv : Modeenv} {c x : σ}

theorem revisionsFromModeenv_of_default (hbase : modeenv.base = F.filename c)
    (hstatus : modeenv.baseStatus = .defaultStatus) :
    revisionsFromModeenv F modeenv = .ok c none .defaultStatus := by
  simp [revisionsFromModeenv, hbase, F.parse_filename, F.filename_ne_empty, hstatus]

theorem revisionsFromModeenv_of_try (hbase : modeenv.base = F.filename c)
    (htry : modeenv.tryBase = F.filename x) (hstatus : modeenv.baseStatus ≠ .defaultStatus) :
    revisionsFromModeenv F modeenv = .ok c (some x) modeenv.baseStatus := by
  simp [revisionsFromModeenv, hbase, htry, F.parse_filename, F.filename_ne_empty, hstatus]

theorem revisionsFromModeenv_status {trySnap : Option σ} {status : BootStatus}
    (h : revisionsFromModeenv F modeenv = .ok c trySnap status) : status = modeenv.baseStatus := by
  unfold revisionsFromModeenv at h
  split at h
  · cases h
  · split at h
    · cases h
    · split at h
      · split at h
        · cases h
        · cases h
          rfl
      · cases h
        rfl

end Revisions

/-- `selectSuccessfulBootSnap`: in "trying" with a try snap, the try snap was booted. -/
def selectSuccessfulBootSnap (revisions : Revisions σ) : Except String σ :=
  match revisions with
  | .ok sn trySnap status =>
    match status, trySnap with
    | .tryingStatus, some t => .ok t
    | _, _ => .ok sn
  | .trySnapError _ msg => .error msg
  | .error msg => .error msg

/-- `bootState20Base.markSuccessful` followed by the commit of its update. -/
def markSuccessful (F : SnapFiles σ) (modeenv : Modeenv) : Except String Modeenv := do
  let sn ← selectSuccessfulBootSnap (revisionsFromModeenv F modeenv)
  return { modeenv with baseStatus := .defaultStatus, tryBase := "", base := F.filename sn }

/-- `genericInitramfsSelectSnap`: the first and second choice of snap to mount, and whether the
error returned with them is `errTrySnapFallback`. `fileExists` says which snap files are in
ubuntu-data. -/
def genericInitramfsSelectSnap (filename : σ → String) (fileExists : String → Bool)
    (revisions : Revisions σ) (expectedTryStatus : BootStatus) (typeString : String) :
    Except String (σ × Option σ × Bool) :=
  let current : Except String (σ × Option σ × BootStatus) :=
    match revisions with
    | .ok curSnap trySnap snapTryStatus => .ok (curSnap, trySnap, snapTryStatus)
    -- a try snap that cannot be read is only logged
    | .trySnapError curSnap _ => .ok (curSnap, none, .defaultStatus)
    | .error msg => .error ("no currently usable " ++ typeString ++ " snaps: " ++ msg)
  match current with
  | .error e => .error e
  | .ok (curSnap, trySnap, snapTryStatus) =>
    if fileExists (filename curSnap) = false then
      .error (typeString ++ " snap \"" ++ filename curSnap ++ "\" does not exist on ubuntu-data")
    else if snapTryStatus ≠ expectedTryStatus then
      -- with the default status no update is under way, and there is no fallback
      .ok (curSnap, none, decide (snapTryStatus ≠ .defaultStatus))
    else
      match trySnap with
      | none => .ok (curSnap, none, true)
      | some trySnap =>
        if fileExists (filename trySnap) then .ok (trySnap, some curSnap, false)
        else .ok (curSnap, none, true)

/-- `bootState20Base.selectAndCommitSnapInitramfsMount`: the base to mount, and the modeenv as
written back. -/
def selectAndCommitSnapInitramfsMount (F : SnapFiles σ) (fileExists : String → Bool)
    (modeenv : Modeenv) : Except String (σ × Modeenv) := do
  let (first, second, _) ← genericInitramfsSelectSnap F.filename fileExists
    (revisionsFromModeenv F modeenv) .tryStatus "base"
  let written : Modeenv :=
    match modeenv.baseStatus with
    -- a try base is mounted: the try is now under way
    | .tryStatus => if second.isSome then { modeenv with baseStatus := .tryingStatus } else modeenv
    -- the try base was mounted at the boot before and it failed
    | .tryingStatus => { modeenv with baseStatus := .defaultStatus }
    | _ => modeenv
  return (first, written)

section Spec

/-! What each of snapd's and the initramfs's functions does once the modeenv's base fields have
been read: the laws the protocol below is built from. -/

variable (F : SnapFiles σ) {modeenv : Modeenv} {c : σ} {trySnap : Option σ} {status : BootStatus}

theorem markSuccessful_of_ok (h : revisionsFromModeenv F modeenv = .ok c trySnap status) :
    markSuccessful F modeenv =
      .ok { modeenv with
              baseStatus := .defaultStatus, tryBase := "",
              base := F.filename (if status = .tryingStatus then trySnap.getD c else c) } := by
  simp only [markSuccessful, h, selectSuccessfulBootSnap]
  cases status <;> cases trySnap <;> rfl

/-- With every snap file in place, the base mounted and the status written back, by the status
the boot starts from. -/
theorem selectAndCommitSnapInitramfsMount_of_ok {fileExists : String → Bool}
    (hexists : ∀ f, fileExists f = true) (h : revisionsFromModeenv F modeenv = .ok c trySnap status) :
    selectAndCommitSnapInitramfsMount F fileExists modeenv =
      if modeenv.baseStatus = .tryingStatus then
        .ok (c, { modeenv with baseStatus := .defaultStatus })
      else if modeenv.baseStatus = .tryStatus ∧ trySnap.isSome then
        .ok (trySnap.getD c, { modeenv with baseStatus := .tryingStatus })
      else .ok (c, modeenv) := by
  have hstatus := revisionsFromModeenv_status F h
  subst hstatus
  simp only [selectAndCommitSnapInitramfsMount, h, genericInitramfsSelectSnap, hexists]
  cases hs : modeenv.baseStatus <;> cases trySnap <;> simp

end Spec

variable [DecidableEq σ]

/-- `genericSetNext`: whether booting `next` needs a reboot, that is whether it is another snap
(name or revision) than the current one. -/
def genericSetNext (revisions : Revisions σ) (next : σ) : Except String Bool :=
  match revisions with
  | .ok current _ _ => if current = next then .ok false else .ok true
  | .trySnapError _ msg => .error msg
  | .error msg => .error msg

/-- `bootState20Base.setNext` followed by the commit of its update: `RebootRequired`, and the
modeenv written. -/
def setNext (F : SnapFiles σ) (modeenv : Modeenv) (next : σ) (bootWithoutTry : Bool) :
    Except String (Bool × Modeenv) := do
  let rebootRequired ← genericSetNext (revisionsFromModeenv F modeenv) next
  let update : BootStatus × Modeenv :=
    if rebootRequired then
      if bootWithoutTry then
        -- the base reverted to is booted without a try
        (.defaultStatus, { modeenv with base := F.filename next, tryBase := "" })
      else (.tryStatus, { modeenv with tryBase := F.filename next })
    -- the same base again: only the status is reset, and a try base is left as it was
    else (.defaultStatus, modeenv)
  return (rebootRequired, { update.2 with baseStatus := update.1 })

theorem setNext_of_ok (F : SnapFiles σ) {modeenv : Modeenv} {c : σ} {trySnap : Option σ}
    {status : BootStatus} (h : revisionsFromModeenv F modeenv = .ok c trySnap status) (next : σ)
    (bootWithoutTry : Bool) :
    setNext F modeenv next bootWithoutTry =
      if c = next then .ok (false, { modeenv with baseStatus := .defaultStatus })
      else if bootWithoutTry then
        .ok (true,
          { modeenv with base := F.filename next, tryBase := "", baseStatus := .defaultStatus })
      else .ok (true, { modeenv with tryBase := F.filename next, baseStatus := .tryStatus }) := by
  by_cases hc : c = next
  · simp [setNext, h, genericSetNext, hc]
  · cases bootWithoutTry <;> simp [setNext, h, genericSetNext, hc]

/-- What writes the base fields of the modeenv: snapd setting the next base, a boot, and snapd
marking a boot good. -/
inductive BaseAction (σ : Type)
  | setNext (next : σ) (bootWithoutTry : Bool)
  | boot
  | markSuccessful
  deriving DecidableEq, Repr

/-- One action on the modeenv, with the snap a boot mounts. An action that fails writes nothing. -/
def baseStep (F : SnapFiles σ) (fileExists : String → Bool) (modeenv : Modeenv) :
    BaseAction σ → Modeenv × Option σ
  | .setNext next bootWithoutTry =>
    match setNext F modeenv next bootWithoutTry with
    | .ok (_, written) => (written, none)
    | .error _ => (modeenv, none)
  | .boot =>
    match selectAndCommitSnapInitramfsMount F fileExists modeenv with
    | .ok (sn, written) => (written, some sn)
    | .error _ => (modeenv, none)
  | .markSuccessful =>
    match markSuccessful F modeenv with
    | .ok written => (written, none)
    | .error _ => (modeenv, none)

end Snapd.Boot
