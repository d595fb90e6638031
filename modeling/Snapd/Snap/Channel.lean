import Mathlib.Data.List.Basic

/-! `snap/channel`: store channel names `[track/]risk[/branch]`, their parsing and
normalisation, and the resolution of a channel change against a current channel or a pinned
track. Go strings are character lists; `strings.Split` is `List.splitOn`, and
`strings.FieldsFunc(s, isSlash)` is the same split with the empty fields dropped. The
system architecture `arch.DpkgArchitecture()` is a parameter of the parsers. -/

-- the type `channel.Channel` of the package `channel`
set_option linter.dupNamespace false

namespace Snapd.Channel

/-- Go's `==` on strings, through which membership in a list of strings is decided. -/
local instance lawfulBEqString : LawfulBEq (List Char) := inferInstance

def channelRisks : List (List Char) :=
  ["stable".toList, "candidate".toList, "beta".toList, "edge".toList]

structure Channel where
  architecture : List Char
  name : List Char
  track : List Char
  risk : List Char
  branch : List Char
  deriving DecidableEq, Repr

/-- `strings.Join(components, "/")` -/
def joinSlash (components : List (List Char)) : List Char := ['/'].intercalate components

/-- `strings.FieldsFunc(s, isSlash)`: the `/`-separated fields that are not empty. -/
def fieldsSlash (s : List Char) : List (List Char) := (s.splitOn '/').filter (· ≠ [])

/-- `Full`: the channel name with the default track `latest` spelled out. -/
def full (s : List Char) : Except String (List Char) :=
  if s = [] then .ok [] else
  match fieldsSlash s with
  | [] => .ok []
  | [c] => if c ∈ channelRisks then .ok ("latest/".toList ++ c) else .ok (c ++ "/stable".toList)
  | [c, d] =>
    if c ∈ channelRisks then .ok ("latest/".toList ++ joinSlash [c, d]) else .ok (joinSlash [c, d])
  | [c, d, e] => .ok (joinSlash [c, d, e])
  | _ => .error "invalid channel"

/-- The components of a channel name as `ParseVerbatim` reads them: track, risk and branch,
each present or not. -/
def verbatimParts (s : List Char) : Except String
    (Option (List Char) × Option (List Char) × Option (List Char)) :=
  match s.splitOn '/' with
  | [p0] => if p0 ∈ channelRisks then .ok (none, some p0, none) else .ok (some p0, none, none)
  | [p0, p1] =>
    if p0 ∈ channelRisks then .ok (none, some p0, some p1) else .ok (some p0, some p1, none)
  | [p0, p1, p2] => .ok (some p0, some p1, some p2)
  | _ => .error ("channel name has too many components: " ++ String.ofList s)

/-- `ParseVerbatim`: the channel as written, with the system architecture when none is given. -/
def parseVerbatim (dpkgArchitecture s architecture : List Char) : Except String Channel := do
  if s = [] then throw "channel name cannot be empty"
  let (track, risk, branch) ← verbatimParts s
  let architecture := if architecture = [] then dpkgArchitecture else architecture
  let ch : Channel := ⟨architecture, [], [], [], []⟩
  let ch ← match risk with
    | some r =>
      if r ∉ channelRisks then throw ("invalid risk in channel name: " ++ String.ofList s)
      else pure { ch with risk := r }
    | none => pure ch
  let ch ← match track with
    | some t =>
      if t = [] then throw ("invalid track in channel name: " ++ String.ofList s)
      else pure { ch with track := t }
    | none => pure ch
  match branch with
  | some b =>
    if b = [] then throw ("invalid branch in channel name: " ++ String.ofList s)
    else pure { ch with branch := b }
  | none => pure ch

/-- `Channel.Clean`: track `latest` is the default track, the default risk is `stable`, and
the name is rebuilt from what is left. -/
def Channel.clean (c : Channel) : Channel :=
  let track := if c.track = "latest".toList then [] else c.track
  let risk := if c.risk = [] then "stable".toList else c.risk
  let name := if track ≠ [] then track ++ '/' :: risk else risk
  let name := if c.branch ≠ [] then name ++ '/' :: c.branch else name
  ⟨c.architecture, name, track, risk, c.branch⟩

def parse (dpkgArchitecture s architecture : List Char) : Except String Channel := do
  let channel ← parseVerbatim dpkgArchitecture s architecture
  pure channel.clean

/-- `Channel.Full`: `Full` of the name, which the source takes to never fail. -/
def Channel.full (c : Channel) : Except String (List Char) := Snapd.Channel.full c.name

def Channel.verbatimTrackOnly (c : Channel) : Bool := c.track ≠ [] && c.risk = [] && c.branch = []

/-- `Resolve`: a risk or risk/branch change keeps the track of the current channel. The
architecture `-` given to `ParseVerbatim` is never looked at. -/
def resolve (dpkgArchitecture channel newChannel : List Char) : Except String (List Char) := do
  if newChannel = [] then return channel
  if channel = [] then return newChannel
  let ch ← parseVerbatim dpkgArchitecture channel ['-']
  let p := newChannel.splitOn '/'
  if p.headD [] ∈ channelRisks ∧ ch.track ≠ [] then return ch.track ++ '/' :: newChannel
  return newChannel

def errPinnedTrackSwitch : String := "cannot switch pinned track"

/-- `ResolvePinned`: a change of a channel pinned to a track keeps the track. -/
def resolvePinned (dpkgArchitecture track newChannel : List Char) : Except String (List Char) := do
  if track = [] then return newChannel
  let invalid := "invalid pinned track: " ++ String.ofList track
  let ch ← match parseVerbatim dpkgArchitecture track ['-'] with
    | .ok ch => if ch.verbatimTrackOnly then pure ch else throw invalid
    | .error _ => throw invalid
  if newChannel = [] then return track
  let trackPrefix := ch.track ++ ['/']
  let p := newChannel.splitOn '/'
  if p.headD [] ∈ channelRisks ∧ ch.track ≠ [] then return trackPrefix ++ newChannel
  if newChannel ≠ track ∧ ¬ trackPrefix <+: newChannel then throw errPinnedTrackSwitch
  return newChannel

/-- `stable/edge/x`, the branch `x` of the risk `edge` on the track `stable`, is a name `Parse`
takes. `Resolve` reads its first component as a risk and puts the track `2.0` of the current
channel in front of it, as `ResolvePinned` does for a pin on that track; the four components
that gives are more than `Parse` takes. -/
theorem resolve_prepends_track_to_full_channel (dpkgArchitecture : List Char) :
    parse dpkgArchitecture "stable/edge/x".toList "amd64".toList =
      .ok ⟨"amd64".toList, "stable/edge/x".toList, "stable".toList, "edge".toList, "x".toList⟩ ∧
    parse dpkgArchitecture "2.0/stable".toList "amd64".toList =
      .ok ⟨"amd64".toList, "2.0/stable".toList, "2.0".toList, "stable".toList, []⟩ ∧
    resolve dpkgArchitecture "2.0/stable".toList "stable/edge/x".toList =
      .ok "2.0/stable/edge/x".toList ∧
    resolvePinned dpkgArchitecture "2.0".toList "stable/edge/x".toList =
      .ok "2.0/stable/edge/x".toList ∧
    parse dpkgArchitecture "2.0/stable/edge/x".toList "amd64".toList =
      .error "channel name has too many components: 2.0/stable/edge/x" :=
  ⟨rfl, rfl, rfl, rfl, rfl⟩

end Snapd.Channel
