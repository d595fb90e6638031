import Snapd.Naming.Validate

/-! Peer authentication in an assembly session (cluster/assemblestate/assemblestate.go): the maps
`trusted` (certificate fingerprint to device token) and `fingerprints` (device token to
fingerprint), what `AuthenticateAndCommit` writes to them and what `VerifyPeer` reads. Device
tokens and addresses are Go strings; fingerprints and HMACs are of any type with equality, and
`CalculateHMAC` is a parameter. The route selector is the list of authoritative routes
`AddAuthoritativeRoute` was given; the session `commit` writes is left out. -/

namespace Snapd.Cluster

open Naming

variable {φ η : Type} [DecidableEq φ] [DecidableEq η]

/-- The fields of `AssembleState` that `AuthenticateAndCommit` reads or writes; `devices` is what
`DeviceQueryTracker.Lookup` finds of a device's identity, its fingerprint. -/
structure AssembleState (φ : Type) where
  trusted : φ → Option (List Char)
  fingerprints : List Char → Option φ
  addresses : φ → Option (List Char)
  devices : List Char → Option φ
  authoritativeRoutes : List (List Char × List Char)

/-- `Auth`, the message a peer authenticates with. -/
structure Auth (η : Type) where
  hmac : η
  rdt : List Char

section Authenticate

variable (calculateHMAC : List Char → φ → List Char → η) (secret : List Char)

/-- The end of `AuthenticateAndCommit`: the authoritative route to a peer whose address is
known. -/
def AssembleState.recordAuthRoute (as : AssembleState φ) (auth : Auth η) (fp : φ) :
    AssembleState φ × Except String Unit :=
  match as.addresses fp with
  | some addr => ({ as with authoritativeRoutes := as.authoritativeRoutes ++ [(auth.rdt, addr)] },
    .ok ())
  | none => (as, .ok ())

/-- `AuthenticateAndCommit` once `fingerprints` holds the peer: the check of its identity. -/
def AssembleState.checkIdentity (as : AssembleState φ) (auth : Auth η) (fp : φ) :
    AssembleState φ × Except String Unit :=
  match as.devices auth.rdt with
  | some idFP =>
    if idFP ≠ fp then (as, .error ("fingerprint mismatch for device " ++ String.ofList auth.rdt))
    else as.recordAuthRoute auth fp
  | none => as.recordAuthRoute auth fp

/-- `AuthenticateAndCommit` once `trusted` holds the peer: its fingerprint in `fingerprints`. -/
def AssembleState.checkFingerprint (as : AssembleState φ) (auth : Auth η) (fp : φ) :
    AssembleState φ × Except String Unit :=
  match as.fingerprints auth.rdt with
  | some existing =>
    if existing ≠ fp then (as, .error ("peer " ++ quoted auth.rdt ++ " is using a new TLS certificate"))
    else as.checkIdentity auth fp
  | none =>
    { as with fingerprints := Function.update as.fingerprints auth.rdt (some fp) }.checkIdentity auth fp

/-- `AssembleState.AuthenticateAndCommit`: the state it leaves, and its error. -/
def AssembleState.authenticateAndCommit (as : AssembleState φ) (auth : Auth η) (fp : φ) :
    AssembleState φ × Except String Unit :=
  if calculateHMAC auth.rdt fp secret ≠ auth.hmac then (as, .error "received invalid HMAC from peer")
  else
    match as.trusted fp with
    | some existing =>
      if existing ≠ auth.rdt then
        (as, .error ("peer " ++ quoted existing ++ " and " ++ quoted auth.rdt ++
          " are using the same TLS certificate"))
      else as.checkFingerprint auth fp
    | none => { as with trusted := Function.update as.trusted fp (some auth.rdt) }.checkFingerprint auth fp

end Authenticate

/-- `AssembleState.VerifyPeer`: the device token a trusted fingerprint maps to. -/
def AssembleState.verifyPeer (as : AssembleState φ) (fp : φ) : Except String (List Char) :=
  match as.trusted fp with
  | some rdt => .ok rdt
  | none => .error "given TLS certificate is not associated with a trusted RDT"

/-- `trusted` and `fingerprints` are inverse partial maps. -/
def AssembleState.Mirrored (as : AssembleState φ) : Prop :=
  ∀ fp rdt, as.trusted fp = some rdt ↔ as.fingerprints rdt = some fp

/-- A peer that comes back with another certificate is refused by `AuthenticateAndCommit`, after
its new fingerprint was made trusted. -/
theorem authenticateAndCommit_new_certificate {calculateHMAC : List Char → φ → List Char → η}
    {secret : List Char} {as : AssembleState φ} {rdt : List Char} {fp fp' : φ}
    (hfp : fp' ≠ fp) (hfresh : as.trusted fp' = none) (hknown : as.fingerprints rdt = some fp) :
    as.authenticateAndCommit calculateHMAC secret ⟨calculateHMAC rdt fp' secret, rdt⟩ fp' =
      ({ as with trusted := Function.update as.trusted fp' (some rdt) },
        .error ("peer " ++ quoted rdt ++ " is using a new TLS certificate")) := by
  simp [AssembleState.authenticateAndCommit, AssembleState.checkFingerprint, hfresh, hknown,
    Ne.symm hfp]

/-- The state of a device `d` with certificate `0` that resumed an empty session:
`ensureLocalDeviceAuthenticated` made it trust only itself, and it knows only its own identity. -/
def selfTrusting : AssembleState Nat :=
  ⟨fun fp => if fp = 0 then some "d".toList else none,
    fun rdt => if rdt = "d".toList then some 0 else none, fun _ => none,
    fun rdt => if rdt = "d".toList then some 0 else none, []⟩

/-- The HMAC of a token, a fingerprint and a secret, as any function of the three. -/
def hmacOf (rdt : List Char) (fp : Nat) (secret : List Char) : List Char × Nat × List Char :=
  (rdt, fp, secret)

/-- The state after a peer `p` authenticated with certificate `1`. -/
def afterFirstAuth : AssembleState Nat :=
  (selfTrusting.authenticateAndCommit hmacOf "s".toList ⟨hmacOf "p".toList 1 "s".toList, "p".toList⟩ 1).1

/-- `p` then authenticates with certificate `2`: the call fails, but leaves certificate `2`
trusted for `p` while `p`'s fingerprint stays `1`, so the maps are no longer inverse and
`VerifyPeer` accepts the certificate whose authentication failed. -/
theorem failed_authentication_trusts_certificate :
    (selfTrusting.authenticateAndCommit hmacOf "s".toList
        ⟨hmacOf "p".toList 1 "s".toList, "p".toList⟩ 1).2 = .ok () ∧
      (afterFirstAuth.authenticateAndCommit hmacOf "s".toList
        ⟨hmacOf "p".toList 2 "s".toList, "p".toList⟩ 2).2 =
        .error "peer \"p\" is using a new TLS certificate" ∧
      afterFirstAuth.verifyPeer 2 = .error "given TLS certificate is not associated with a trusted RDT" ∧
      (afterFirstAuth.authenticateAndCommit hmacOf "s".toList
        ⟨hmacOf "p".toList 2 "s".toList, "p".toList⟩ 2).1.verifyPeer 2 = .ok "p".toList ∧
      ¬ (afterFirstAuth.authenticateAndCommit hmacOf "s".toList
        ⟨hmacOf "p".toList 2 "s".toList, "p".toList⟩ 2).1.Mirrored := by
  have hfirst : afterFirstAuth.fingerprints "p".toList = some 1 := by decide
  have hsecond : afterFirstAuth.authenticateAndCommit hmacOf "s".toList
      ⟨hmacOf "p".toList 2 "s".toList, "p".toList⟩ 2 =
      ({ afterFirstAuth with trusted := Function.update afterFirstAuth.trusted 2 (some "p".toList) },
        .error ("peer " ++ quoted "p".toList ++ " is using a new TLS certificate")) :=
    authenticateAndCommit_new_certificate (by decide) (by decide) hfirst
  refine ⟨by decide, by rw [hsecond]; rfl, by decide, by rw [hsecond]; decide, ?_⟩
  -- certificate `2` maps to `p`, but `p` maps to certificate `1`
  rw [hsecond]
  intro hmirror
  have hback := (hmirror 2 "p".toList).mp (by decide)
  exact absurd hback (by decide)

end Snapd.Cluster
