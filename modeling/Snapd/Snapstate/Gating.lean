import Mathlib.Data.Int.Order.Basic
import Mathlib.Logic.Function.Basic
import Mathlib.Control.Monad.Basic
import Mathlib.Algebra.Group.Int.Defs

/-! Holds on refreshes (overlord/snapstate/autorefresh_gating.go): `HoldRefresh` records, for a
held snap and the snap holding it, when the hold was first placed and until when it lasts, and
`HeldSnaps` reports the holds still in effect. Times and durations are Go's nanosecond counts,
as integers; `timeNow` and `lastRefreshed` are parameters. The `snaps-hold` map is a function of
the held and the holding snap. -/

namespace Snapd.Snapstate

inductive HoldLevel where
  | holdAutoRefresh
  | holdGeneral
  deriving DecidableEq, Repr

/-- The `iota` value of a level, which `HeldSnaps` compares. -/
def HoldLevel.rank : HoldLevel → Nat
  | .holdAutoRefresh => 0
  | .holdGeneral => 1

structure HoldState where
  firstHeld : Int
  holdUntil : Int
  level : HoldLevel
  deriving DecidableEq, Repr

/-- `snaps-hold`: held snap, then holding snap. -/
abbrev Gating := String → String → Option HoldState

def hour : Int := 3600 * 1000000000

def day : Int := 24 * hour

def maxPostponement : Int := 95 * day

def maxPostponementBuffer : Int := 5 * day

/-- `maxDuration`, the largest `time.Duration`. -/
def maxDuration : Int := 2 ^ 63 - 1

def maxOtherHoldDuration : Int := 48 * hour

def maxAllowedPostponement (gatingSnap affectingSnap : String) (maxPostponement : Int) : Int :=
  if affectingSnap = gatingSnap then maxPostponement else maxOtherHoldDuration

def holdDurationLeft (now lastRefresh firstHeld maxDuration maxPostponement : Int) : Int :=
  let d1 := firstHeld + maxDuration - now
  let d2 := lastRefresh + maxPostponement - now
  if d1 < d2 then d1 else d2

/-- `HoldError`: the held snaps that could not be held, with their errors, in the order found. -/
structure HoldError where
  snapsInError : List (String × String)
  deriving DecidableEq, Repr

/-- The loop state of `HoldRefresh`: `snaps-hold`, the errors, the smallest duration left and
`holdDuration`, which a hold by the system sets to `maxDuration` when it is zero. -/
structure HoldLoop where
  gating : Gating
  errors : List (String × String)
  durationMin : Int
  holdDuration : Int

section HoldRefresh

variable (lastRefreshed : String → Except String Int) (now : Int) (level : HoldLevel)
  (gatingSnap : String)

/-- The hold `HoldRefresh` stores for `heldSnap` once it may hold it for `left`. -/
def storeHold (s : HoldLoop) (heldSnap : String) (hold : HoldState) (left : Int) : HoldLoop :=
  { s with
    gating := Function.update s.gating heldSnap
      (Function.update (s.gating heldSnap) gatingSnap (some hold))
    durationMin := if s.durationMin = 0 ∨ left < s.durationMin then left else s.durationMin }

/-- One turn of the loop of `HoldRefresh`, for `heldSnap`; an error of `lastRefreshed` ends the
call. -/
def holdStep (s : HoldLoop) (heldSnap : String) : Except String HoldLoop :=
  let hold := match s.gating heldSnap gatingSnap with
    | some hold => { hold with level := level }
    | none => { firstHeld := now, holdUntil := 0, level := level }
  if gatingSnap = "system" then
    let holdDuration := if s.holdDuration = 0 then maxDuration else s.holdDuration
    .ok (storeHold gatingSnap { s with holdDuration := holdDuration } heldSnap
      { hold with holdUntil := now + holdDuration } holdDuration)
  else
    match lastRefreshed heldSnap with
    | .error e => .error e
    | .ok lastRefreshTime =>
      let mp := maxPostponement - maxPostponementBuffer
      let maxDur := maxAllowedPostponement gatingSnap heldSnap mp
      let left := holdDurationLeft now lastRefreshTime hold.firstHeld maxDur mp
      if left ≤ 0 then
        .ok { s with errors := s.errors ++ [(heldSnap, "snap \"" ++ gatingSnap ++
          "\" cannot hold snap \"" ++ heldSnap ++ "\" anymore, maximum refresh postponement exceeded")] }
      else if s.holdDuration ≠ 0 ∧ s.holdDuration > maxDur then
        .ok { s with errors := s.errors ++ [(heldSnap, "requested holding duration for snap \"" ++
          heldSnap ++ "\" exceeds maximum holding time")] }
      else
        let dur := if s.holdDuration = 0 then left else s.holdDuration
        let newHold := now + dur
        let cutOff := lastRefreshTime + mp
        .ok (storeHold gatingSnap s heldSnap
          { hold with holdUntil := if newHold < cutOff then newHold else cutOff } left)

/-- The loop of `HoldRefresh` over the affected snaps. -/
def holdLoop : HoldLoop → List String → Except String HoldLoop
  | s, [] => .ok s
  | s, heldSnap :: rest =>
    match holdStep lastRefreshed now level gatingSnap s heldSnap with
    | .error e => .error e
    | .ok s => holdLoop s rest

/-- `HoldRefresh`: the `snaps-hold` it stores and what it returns. An error of `lastRefreshed`
stores nothing; a hold error removes the holding snap's holds on all the affected snaps. -/
def holdRefresh (gating : Gating) (holdDuration : Int) (affectingSnaps : List String) :
    Gating × Except (String ⊕ HoldError) Int :=
  match holdLoop lastRefreshed now level gatingSnap ⟨gating, [], 0, holdDuration⟩ affectingSnaps with
  | .error e => (gating, .error (.inl e))
  | .ok s =>
    if s.errors ≠ [] then
      (fun held holding => if held ∈ affectingSnaps ∧ holding = gatingSnap then none
        else s.gating held holding, .error (.inr ⟨s.errors⟩))
    else (s.gating, .ok s.durationMin)

end HoldRefresh

/-- Whether `HeldSnaps` lists `holdingSnap` among the snaps holding `heldSnap`. -/
def heldSnaps (gating : Gating) (lastRefreshed : String → Except String Int) (now : Int)
    (level : HoldLevel) (heldSnap holdingSnap : String) : Except String Bool :=
  match gating heldSnap holdingSnap with
  | none => .ok false
  | some hold =>
    match lastRefreshed heldSnap with
    | .error e => .error e
    | .ok lastRefresh =>
      .ok (!(decide (hold.level.rank < level.rank)) &&
        !(holdingSnap ≠ "system" && decide (lastRefresh + maxPostponement < now)) &&
        !(decide (hold.holdUntil < now)))

/-- A hold by another snap lasts at most its cumulative limit from when it was first placed. -/
def WithinOtherLimit (gating : Gating) (heldSnap holdingSnap : String) : Prop :=
  ∀ hold, gating heldSnap holdingSnap = some hold →
    hold.holdUntil ≤ hold.firstHeld + maxAllowedPostponement holdingSnap heldSnap
      (maxPostponement - maxPostponementBuffer)

/-- `s`, last refreshed at time `0`. -/
def refreshedAtZero (_ : String) : Except String Int := .ok 0

/-- Snap `g` holds snap `s` for 48 hours at hour 1. -/
def firstHold : Gating × Except (String ⊕ HoldError) Int :=
  holdRefresh refreshedAtZero hour .holdGeneral "g" (fun _ _ => none) (48 * hour) ["s"]

/-- `g` holds `s` again for 48 hours at hour 48, one hour before the first hold ends. -/
def secondHold : Gating × Except (String ⊕ HoldError) Int :=
  holdRefresh refreshedAtZero (48 * hour) .holdGeneral "g" firstHold.1 (48 * hour) ["s"]

/-- The second hold succeeds: `left` is one hour, but only the requested duration is checked
against the limit, so the hold now lasts to hour 96, 95 hours after it was first placed, and
`HeldSnaps` still reports it at hour 95. -/
theorem rehold_extends_past_cumulative_limit :
    firstHold.2 = .ok (48 * hour) ∧ secondHold.2 = .ok hour ∧
      secondHold.1 "s" "g" = some ⟨hour, 96 * hour, .holdGeneral⟩ ∧
      ¬ WithinOtherLimit secondHold.1 "s" "g" ∧
      heldSnaps secondHold.1 refreshedAtZero (95 * hour) .holdGeneral "s" "g" = .ok true := by
  have hsecond : secondHold.1 "s" "g" = some ⟨hour, 96 * hour, .holdGeneral⟩ := by decide
  refine ⟨by decide, by decide, hsecond, ?_, by decide⟩
  intro hlimit
  have hle := hlimit _ hsecond
  have hne : ("s" : String) ≠ "g" := by decide
  simp only [maxAllowedPostponement, hne, if_false, maxOtherHoldDuration, hour] at hle
  omega

end Snapd.Snapstate
