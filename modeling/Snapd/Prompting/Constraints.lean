import Snapd.Patterns.PathPattern
import Mathlib.Data.List.AList

/-! Rule constraints of the prompting subsystem (`interfaces/prompting/constraints.go` and
`prompting.go`): outcomes, lifespans, permission entries, when an entry has expired and when
it supersedes another, and the conversion and patching of permission maps.

Times are nanosecond counts, with `0` for Go's zero `time.Time`. A Go map is an `AList`, and
its iteration order, which Go leaves open, is the order of the list. -/

namespace Snapd.Prompting

open Patterns

/-- `IDType.String`: sixteen upper-case hexadecimal digits. -/
def idString (id : Nat) : String :=
  let digits := (Nat.toDigits 16 id).map Char.toUpper
  String.ofList (List.replicate (16 - digits.length) '0' ++ digits)

/-- `%q` of a string, without Go's escaping of special characters. -/
def quoted (s : List Char) : String := "\"" ++ String.ofList s ++ "\""

/-- `OutcomeType`. Unmarshalling admits `allow` and `deny`; the empty outcome is the unset
value. -/
inductive OutcomeType where
  | outcomeUnset
  | outcomeAllow
  | outcomeDeny
  deriving DecidableEq, Repr

def OutcomeType.asBool : OutcomeType → Except String Bool
  | .outcomeAllow => .ok true
  | .outcomeDeny => .ok false
  | .outcomeUnset => .error "invalid outcome: \"\""

inductive LifespanType where
  | lifespanUnset
  | lifespanForever
  | lifespanSingle
  | lifespanTimespan
  | lifespanSession
  deriving DecidableEq, Repr

def LifespanType.text : LifespanType → List Char
  | .lifespanUnset => []
  | .lifespanForever => "forever".toList
  | .lifespanSingle => "single".toList
  | .lifespanTimespan => "timespan".toList
  | .lifespanSession => "session".toList

/-- `At`: a point in time and the user session current at it. -/
structure At where
  time : Int
  sessionID : Nat
  deriving DecidableEq, Repr

structure RulePermissionEntry where
  outcome : OutcomeType
  lifespan : LifespanType
  expiration : Int
  sessionID : Nat
  deriving DecidableEq, Repr

/-- `RulePermissionEntry.Expired`: a timespan has run out, or the session has changed. -/
def RulePermissionEntry.expired (e : RulePermissionEntry) (now : At) : Bool :=
  match e.lifespan with
  | .lifespanTimespan => !decide (now.time < e.expiration)
  | .lifespanSession => e.sessionID != now.sessionID
  | _ => false

/-- `RulePermissionEntry.Supersedes`: whether `e` lives at least as long as `other`, as the
source ranks lifespans. -/
def RulePermissionEntry.supersedes (e other : RulePermissionEntry) (currSession : Nat) : Bool :=
  if other.lifespan = .lifespanForever then false
  else if e.lifespan = .lifespanForever then true
  else if other.lifespan = .lifespanSession ∧ other.sessionID = currSession then false
  else if e.lifespan = .lifespanSession then e.sessionID = currSession
  else if other.lifespan = .lifespanSession ∧ other.sessionID ≠ currSession then true
  else if other.lifespan = .lifespanTimespan then
    if e.lifespan = .lifespanSingle then false else decide (other.expiration < e.expiration)
  else e.lifespan = .lifespanTimespan

/-- `RulePermissionMap`, from permission to entry. -/
abbrev RulePermissionMap := AList (fun _ : List Char => RulePermissionEntry)

/-- `RulePermissionMap.Expired`: every entry has expired. -/
def RulePermissionMap.expired (pm : RulePermissionMap) (now : At) : Bool :=
  pm.entries.all fun entry => entry.2.expired now

/-- `PermissionEntry`, as a request gives it: a duration rather than an expiration. -/
structure PermissionEntry where
  outcome : OutcomeType
  lifespan : LifespanType
  duration : List Char
  deriving DecidableEq, Repr

/-- `NewInvalidDurationError`. -/
def invalidDurationError (invalid : List Char) (reason : String) : String :=
  "invalid duration: " ++ reason ++ ": " ++ quoted invalid

/-- `LifespanType.ParseDuration`, over `time.ParseDuration` (in nanoseconds): only a timespan
has a duration, which must be positive, and it expires that long after `currTime`. -/
def LifespanType.parseDuration (goParseDuration : List Char → Except String Int)
    (lifespan : LifespanType) (duration : List Char) (currTime : Int) : Except String Int :=
  match lifespan with
  | .lifespanForever | .lifespanSession | .lifespanSingle =>
    if duration ≠ [] then
      .error (invalidDurationError duration
        ("cannot have specified duration when lifespan is " ++ quoted lifespan.text))
    else .ok 0
  | .lifespanTimespan =>
    if duration = [] then
      .error (invalidDurationError duration
        ("cannot have unspecified duration when lifespan is " ++ quoted lifespan.text))
    else
      match goParseDuration duration with
      | .error err => .error (invalidDurationError duration ("cannot parse duration: " ++ err))
      | .ok parsed =>
        if parsed ≤ 0 then
          .error (invalidDurationError duration
            ("cannot have zero or negative duration: " ++ quoted duration))
        else .ok (currTime + parsed)
  | .lifespanUnset => .error "invalid lifespan: \"\""

/-- `PermissionEntry.toRulePermissionEntry`: the session is recorded for a session lifespan,
and an expiration that cannot be parsed is the zero time. -/
def PermissionEntry.toRulePermissionEntry (goParseDuration : List Char → Except String Int)
    (e : PermissionEntry) (now : At) : RulePermissionEntry :=
  let sessionIDToUse := if e.lifespan = .lifespanSession then now.sessionID else 0
  let expiration := match e.lifespan.parseDuration goParseDuration e.duration now.time with
    | .ok t => t
    | .error _ => 0
  ⟨e.outcome, e.lifespan, expiration, sessionIDToUse⟩

/-- `PermissionMap`, from permission to a requested entry. -/
abbrev PermissionMap := AList (fun _ : List Char => PermissionEntry)

def PermissionMap.toRulePermissionMap (goParseDuration : List Char → Except String Int)
    (pm : PermissionMap) (now : At) : RulePermissionMap :=
  pm.entries.foldl (fun acc entry =>
    acc.insert entry.1 (entry.2.toRulePermissionEntry goParseDuration now)) (∅ : RulePermissionMap)

/-- `RuleConstraints`: the interface-specific part is its path pattern (`/**` for interfaces
without one). -/
structure RuleConstraints where
  pathPattern : PathPattern
  permissions : RulePermissionMap

/-- `Constraints`, as a request to add a rule gives them. -/
structure Constraints where
  pathPattern : PathPattern
  permissions : PermissionMap

def Constraints.toRuleConstraints (goParseDuration : List Char → Except String Int)
    (c : Constraints) (now : At) : RuleConstraints :=
  ⟨c.pathPattern, c.permissions.toRulePermissionMap goParseDuration now⟩

/-- `RulePermissionMapPatch`: a `none` entry removes the permission. -/
abbrev RulePermissionMapPatch := AList (fun _ : List Char => Option PermissionEntry)

def errPatchedRuleHasNoPerms : String := "cannot patch rule to have no permissions"

/-- `patchRulePermissionMap`: the unexpired existing entries, then the patch applied on top. -/
def RulePermissionMapPatch.patchRulePermissionMap (goParseDuration : List Char → Except String Int)
    (pm : RulePermissionMapPatch) (existing : RulePermissionMap) (now : At) :
    Except String RulePermissionMap :=
  let kept := existing.entries.foldl (fun acc entry =>
    if !entry.2.expired now then acc.insert entry.1 entry.2 else acc) (∅ : RulePermissionMap)
  let patched := pm.entries.foldl (fun acc entry =>
    match entry.2 with
    | none => acc.erase entry.1
    | some e => acc.insert entry.1 (e.toRulePermissionEntry goParseDuration now)) kept
  if patched.entries.isEmpty then .error errPatchedRuleHasNoPerms else .ok patched

/-- `RuleConstraintsPatch`: an omitted path pattern or permission map keeps the existing one. -/
structure RuleConstraintsPatch where
  pathPattern : Option PathPattern
  permissions : Option RulePermissionMapPatch

def RuleConstraintsPatch.patchRuleConstraints (goParseDuration : List Char → Except String Int)
    (c : RuleConstraintsPatch) (existing : RuleConstraints) (now : At) :
    Except String RuleConstraints :=
  let pathPattern := c.pathPattern.getD existing.pathPattern
  match c.permissions with
  | none => .ok ⟨pathPattern, existing.permissions⟩
  | some pm =>
    match pm.patchRulePermissionMap goParseDuration existing.permissions now with
    | .error e => .error e
    | .ok newPermissions => .ok ⟨pathPattern, newPermissions⟩

end Snapd.Prompting
