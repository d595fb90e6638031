import Snapd.Naming.Validate

/-! Security tags: their parsing in Go (`snap/naming/tag.go`), and the check
`sc_is_hook_security_tag` of snap-confine (`cmd/libsnap-confine-private/snap.c`), a POSIX
extended regex matched against the whole tag. -/

namespace Snapd.Naming

/-- A parsed security tag: of an application, or of a hook of the snap or of one of its
components (the empty component name standing for none, as in the source). -/
inductive SecurityTag where
  | appSecurityTag (instanceName appName : List Char)
  | hookSecurityTag (instanceName hookName componentName : List Char)
  deriving DecidableEq, Repr

def errInvalidSecurityTag : String := "invalid security tag"

/-- `strings.SplitN(s, ".", n)`: at most `n` parts, the last holding the rest. -/
def splitN : Nat → List Char → List (List Char)
  | 0, _ => []
  | 1, s => [s]
  | n + 2, s =>
    match cut s '.' with
    | none => [s]
    | some (before, after) => before :: splitN (n + 1) after

/-- `ParseSecurityTag`: `snap`, the instance name with an optional `+component`, then an app
name, or `hook` and a hook name. Every failure is `errInvalidSecurityTag`. -/
def parseSecurityTag (tag : List Char) : Except String SecurityTag :=
  let parts := splitN 5 tag
  if parts.length ≠ 3 ∧ parts.length ≠ 4 then .error errInvalidSecurityTag
  else
    let snapLiteral := parts.getD 0 []
    if snapLiteral ≠ "snap".toList then .error errInvalidSecurityTag
    else
      let (snapName, componentName, isComponent) :=
        match cut (parts.getD 1 []) '+' with
        | some (before, after) => (before, after, true)
        | none => (parts.getD 1 [], [], false)
      if (validateInstance snapName).isOk = false then .error errInvalidSecurityTag
      else if isComponent ∧ (validateSnap componentName).isOk = false then
        .error errInvalidSecurityTag
      else if parts.length = 3 then
        -- components don't support apps
        if isComponent then .error errInvalidSecurityTag
        else
          let appName := parts.getD 2 []
          if (validateApp appName).isOk = false then .error errInvalidSecurityTag
          else .ok (.appSecurityTag snapName appName)
      else
        let hookLiteral := parts.getD 2 []
        let hookName := parts.getD 3 []
        if hookLiteral ≠ "hook".toList then .error errInvalidSecurityTag
        else if (validateHook hookName).isOk = false then .error errInvalidSecurityTag
        else .ok (.hookSecurityTag snapName hookName componentName)

def parseHookSecurityTag (tag : List Char) : Except String SecurityTag :=
  match parseSecurityTag tag with
  | .error e => .error e
  | .ok (.hookSecurityTag instanceName hookName componentName) =>
    .ok (.hookSecurityTag instanceName hookName componentName)
  | .ok (.appSecurityTag _ _) => .error (quoted tag ++ " is not a hook security tag")

/-- The regex of `sc_is_hook_security_tag`:
`^snap\.[a-z](-?[a-z0-9])*(_[a-z0-9]{1,10})?\.(hook\.[a-z](-?[a-z0-9])*)$`. -/
def hookTagRegex : Regex Char :=
  .seq (.str "snap.".toList) <|
  .seq lowerClass <| .seq (dashedRun lowerDigitClass) <|
  .seq (.opt (.seq (.char '_') validInstanceKey)) <|
  .seq (.char '.') <| .seq (.str "hook.".toList) <| .seq lowerClass (dashedRun lowerDigitClass)

/-- `sc_is_hook_security_tag` -/
def scIsHookSecurityTag (securityTag : List Char) : Bool := hookTagRegex.rmatch securityTag

/-- Go accepts the hook tags of a snap whose name starts with a digit, such as `0ad`, and of a
component; `sc_is_hook_security_tag` accepts neither. -/
theorem hook_tag_checks_disagree :
    (parseHookSecurityTag "snap.0ad.hook.configure".toList).isOk = true ∧
    scIsHookSecurityTag "snap.0ad.hook.configure".toList = false ∧
    parseHookSecurityTag "snap.foo+comp.hook.install".toList =
      .ok (.hookSecurityTag "foo".toList "install".toList "comp".toList) ∧
    scIsHookSecurityTag "snap.foo+comp.hook.install".toList = false := by
  refine ⟨?_, ?_, ?_, ?_⟩ <;> decide

end Snapd.Naming
