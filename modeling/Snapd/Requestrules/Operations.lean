import Snapd.Requestrules.RuleDB

/-! The rule operations of `requestrules.go`, each a function from the database to the
database and a result: the source changes the database also on the paths that return an
error. What the operations get from outside (the disk, the user session, the clock and
`time.ParseDuration`) is in `Env` and the arguments. -/

namespace Snapd.Requestrules

open Patterns Prompting

/-- The world outside the rule database. -/
structure Env where
  /-- `time.ParseDuration`, in nanoseconds. -/
  parseDuration : List Char → Except String Int
  /-- `rdb.save()`, given the rules it writes: `none` when writing succeeds. -/
  save : List Rule → Option String
  /-- `ReadOrAssignUserSessionID` for each user. -/
  userSession : Nat → Except String Nat

variable (env : Env)

/-- `addNewRule`: an ID is assigned to a rule without one, the rule joins the list and then
the tree; a conflict takes it out of the list again, and a failed save removes it. -/
def addNewRule (rdb : RuleDB) (rule : Rule) (now : At) (save : Bool) : RuleDB × Except RuleError Rule :=
  let (rule, rdb) :=
    if rule.id = 0 then ({ rule with id := rdb.maxID + 1 }, { rdb with maxID := rdb.maxID + 1 })
    else (rule, rdb)
  match rdb.addRuleToRulesList rule with
  | .error e => (rdb, .error e)
  | .ok rdb =>
    match addRuleToTree rdb rule now with
    | (rdb, some conflicts) =>
      ({ rdb with rules := rdb.rules.dropLast, indexByID := rdb.indexByID.erase rule.id },
       .error (.ruleConflict conflicts))
    | (rdb, none) =>
      if !save then (rdb, .ok rule)
      else
        match env.save rdb.rules with
        | none => (rdb, .ok rule)
        | some err =>
          match removeRuleByID rdb rule.id with
          | .ok (_, rdb') => (rdb', .error (.message err))
          | .error _ => (rdb, .error (.message err))

/-- The permissions of a merged rule: the unexpired ones of the existing rule, with each
permission of the new rule added, or kept over an entry of the same outcome that it
supersedes; a permission of the other outcome is a conflict. -/
def mergePermissions (existingRule rule : Rule) (now : At) :
    RulePermissionMap × List RuleConflict :=
  let kept := existingRule.constraints.permissions.entries.foldl (fun acc entry =>
    if entry.2.expired now then acc else acc.insert entry.1 entry.2) (∅ : RulePermissionMap)
  rule.constraints.permissions.entries.foldl (fun (acc : RulePermissionMap × List RuleConflict) entry =>
    match acc.1.lookup entry.1 with
    | none => (acc.1.insert entry.1 entry.2, acc.2)
    | some existingEntry =>
      if entry.2.outcome ≠ existingEntry.outcome then
        (acc.1, acc.2 ++ [⟨entry.1, rule.constraints.pathPattern.original, idString existingRule.id⟩])
      else if entry.2.supersedes existingEntry now.sessionID then (acc.1.insert entry.1 entry.2, acc.2)
      else acc) (kept, [])

/-- `addOrMergeRule`: a rule with a new pattern is added; one whose pattern string a rule of
the same user, snap and interface has is merged with it, the existing rule being removed and
added back if the merged one cannot be added. The flag tells whether it merged. -/
def addOrMergeRule (rdb : RuleDB) (rule : Rule) (now : At) (save : Bool) :
    RuleDB × Except RuleError (Rule × Bool) :=
  match rdb.lookupRuleByPathPattern rule.user rule.snap rule.iface rule.constraints with
  | .error e => (rdb, .error e)
  | .ok none =>
    let (rdb, result) := addNewRule env rdb rule now save
    (rdb, result.map (·, false))
  | .ok (some existingRule) =>
    let (newPermissions, conflicts) := mergePermissions existingRule rule now
    if !conflicts.isEmpty then (rdb, .error (.ruleConflict conflicts))
    else
      let newRule := { existingRule with
        timestamp := rule.timestamp,
        constraints := ⟨existingRule.constraints.pathPattern, newPermissions⟩ }
      let rdb := match removeRuleByID rdb existingRule.id with
        | .ok (_, rdb') => rdb'
        | .error _ => rdb
      match addNewRule env rdb newRule now save with
      | (rdb, .ok added) => (rdb, .ok (added, true))
      | (rdb, .error err) =>
        match addNewRule env rdb existingRule now false with
        | (rdb, .ok _) => (rdb, .error err)
        | (rdb, .error restoreErr) =>
          (rdb, .error (.joined [err, .wrapped "cannot re-add existing rule" restoreErr]))

/-- `makeNewRule`: a rule without ID, its constraints converted at `now`. -/
def makeNewRule (user : Nat) (snap iface : List Char) (constraints : Constraints) (now : At) : Rule :=
  ⟨0, now.time, user, snap, iface, constraints.toRuleConstraints env.parseDuration now⟩

/-- `AddRule`, at time `time`. -/
def addRule (rdb : RuleDB) (user : Nat) (snap iface : List Char) (constraints : Constraints)
    (time : Int) : RuleDB × Except RuleError Rule :=
  if rdb.closed then (rdb, .error .promptingClosed)
  else
    match env.userSession user with
    | .error e => (rdb, .error (.message e))
    | .ok currSession =>
      let now : At := ⟨time, currSession⟩
      match addOrMergeRule env rdb (makeNewRule env user snap iface constraints now) now true with
      | (rdb, .error e) => (rdb, .error (.wrapped "cannot add rule" e))
      | (rdb, .ok (newRule, _)) => (rdb, .ok newRule)

/-- `RemoveRule`: out of the list, saved, then out of the tree; a failed save appends the rule
to the list again. -/
def removeRule (rdb : RuleDB) (user id : Nat) : RuleDB × Except RuleError Rule :=
  if rdb.closed then (rdb, .error .promptingClosed)
  else
    match rdb.lookupRuleByIDForUser user id with
    | .error e => (rdb, .error e)
    | .ok rule =>
      let rdb := match rdb.removeRuleByIDFromRulesList id with
        | .ok (_, rdb') => rdb'
        | .error _ => rdb
      match env.save rdb.rules with
      | some err =>
        match rdb.addRuleToRulesList rule with
        | .ok rdb' => (rdb', .error (.message err))
        | .error _ => (rdb, .error (.message err))
      | none => ((removeRuleFromTree rdb rule).1, .ok rule)

/-- `rulesInternal`: the rules that the filter keeps and that have not fully expired, each
judged in the current session of its user (the zero session when it cannot be read). -/
def rulesInternal (rdb : RuleDB) (time : Int) (ruleFilter : Rule → Bool) : List Rule :=
  rdb.rules.filter fun rule =>
    let session := match env.userSession rule.user with
      | .ok s => s
      | .error _ => 0
    !rule.constraints.permissions.expired ⟨time, session⟩ && ruleFilter rule

/-- `removeRulesInternal`: all out of the list, saved, then all out of the tree; a failed save
appends them to the list again. -/
def removeRulesInternal (rdb : RuleDB) (rules : List Rule) : RuleDB × Option RuleError :=
  if rdb.closed then (rdb, some .promptingClosed)
  else if rules.isEmpty then (rdb, none)
  else
    let removed := rules.foldl (fun rdb rule =>
      match rdb.removeRuleByIDFromRulesList rule.id with
      | .ok (_, rdb') => rdb'
      | .error _ => rdb) rdb
    match env.save removed.rules with
    | some err =>
      (rules.foldl (fun rdb rule =>
        match rdb.addRuleToRulesList rule with
        | .ok rdb' => rdb'
        | .error _ => rdb) removed, some (.message err))
    | none => (rules.foldl (fun rdb rule => (removeRuleFromTree rdb rule).1) removed, none)

/-- `RemoveRulesForSnap`, `RemoveRulesForInterface` and `RemoveRulesForSnapInterface`: the
rules of the user that the filter keeps. -/
def removeRulesMatching (rdb : RuleDB) (time : Int) (ruleFilter : Rule → Bool) :
    RuleDB × Except RuleError (List Rule) :=
  let rules := rulesInternal env rdb time ruleFilter
  match removeRulesInternal env rdb rules with
  | (rdb, some err) => (rdb, .error err)
  | (rdb, none) => (rdb, .ok rules)

def removeRulesForSnap (rdb : RuleDB) (time : Int) (user : Nat) (snap : List Char) :
    RuleDB × Except RuleError (List Rule) :=
  removeRulesMatching env rdb time fun rule => rule.user = user && rule.snap = snap

def removeRulesForInterface (rdb : RuleDB) (time : Int) (user : Nat) (iface : List Char) :
    RuleDB × Except RuleError (List Rule) :=
  removeRulesMatching env rdb time fun rule => rule.user = user && rule.iface = iface

def removeRulesForSnapInterface (rdb : RuleDB) (time : Int) (user : Nat) (snap iface : List Char) :
    RuleDB × Except RuleError (List Rule) :=
  removeRulesMatching env rdb time fun rule =>
    rule.user = user && rule.snap = snap && rule.iface = iface

/-- `PatchRule`: the rule is removed and the patched rule added or merged; if that fails the
original rule is added back. -/
def patchRule (rdb : RuleDB) (user id : Nat) (constraintsPatch : RuleConstraintsPatch)
    (time : Int) : RuleDB × Except RuleError Rule :=
  if rdb.closed then (rdb, .error .promptingClosed)
  else
    match rdb.lookupRuleByIDForUser user id with
    | .error e => (rdb, .error e)
    | .ok origRule =>
      match env.userSession user with
      | .error e => (rdb, .error (.message e))
      | .ok currSession =>
        let now : At := ⟨time, currSession⟩
        match constraintsPatch.patchRuleConstraints env.parseDuration origRule.constraints now with
        | .error e => (rdb, .error (.message e))
        | .ok ruleConstraints =>
          let newRule : Rule :=
            ⟨origRule.id, now.time, origRule.user, origRule.snap, origRule.iface, ruleConstraints⟩
          let rdb := match removeRuleByID rdb origRule.id with
            | .ok (_, rdb') => rdb'
            | .error _ => rdb
          match addOrMergeRule env rdb newRule now true with
          | (rdb, .ok (patched, _)) => (rdb, .ok patched)
          | (rdb, .error addErr) =>
            let err := RuleError.wrapped "cannot patch rule" addErr
            match addNewRule env rdb origRule now false with
            | (rdb, .ok _) => (rdb, .error err)
            | (rdb, .error origErr) =>
              (rdb, .error (.joined [err, .wrapped "cannot re-add original rule" origErr]))

section Matching

variable (doublestarMatch : List Char → List Char → Option Bool)
  (find : List (Regex Char) → List Char → Option (List (List Char)))

/-- The loop of `isPathPermAllowed` over the variant map: the variants of unexpired entries
whose string matches the path. -/
def matchingVariants (variantMap : AList (fun _ : List Char => VariantEntry)) (path : List Char)
    (now : At) : Except RuleError (List PatternVariant) :=
  variantMap.entries.foldlM (fun acc entry =>
    if entry.2.expired now then .ok acc
    else
      match pathPatternMatches doublestarMatch entry.1 path with
      | .error err => .error (.message ("internal error: while matching path pattern: " ++ err))
      | .ok true => .ok (acc ++ [entry.2.variant])
      | .ok false => .ok acc) []

/-- `isPathPermAllowed`: the outcome of the matching variant of highest precedence. -/
def isPathPermAllowed (rdb : RuleDB) (user : Nat) (snap iface path permission : List Char)
    (now : At) : Except RuleError Bool :=
  match rdb.permissionDBForUserSnapInterfacePermission user snap iface permission with
  | none => .error .noMatchingRule
  | some permissionMap =>
    let variantMap := permissionMap.variantEntries
    match matchingVariants doublestarMatch variantMap path now with
    | .error e => .error e
    | .ok [] => .error .noMatchingRule
    | .ok matching =>
      match highestPrecedencePattern find matching path with
      | .error e => .error (.message e)
      | .ok highest =>
        -- a missing entry reads as the zero entry, whose unset outcome is invalid
        let matchingOutcome : OutcomeType :=
          ((variantMap.lookup highest.variant).map VariantEntry.outcome).getD .outcomeUnset
        match matchingOutcome.asBool with
        | .error e => .error (.message e)
        | .ok allowed => .ok allowed

/-- `IsRequestAllowed`: the permissions allowed, whether one is denied, the permissions no
rule decides, and the other errors joined. -/
def isRequestAllowed (rdb : RuleDB) (user : Nat) (snap iface path : List Char)
    (permissions : List (List Char)) (now : At) :
    List (List Char) × Bool × List (List Char) × List RuleError :=
  permissions.foldl (fun acc perm =>
    let (allowedPerms, anyDenied, outstandingPerms, errs) := acc
    match isPathPermAllowed doublestarMatch find rdb user snap iface path perm now with
    | .ok true => (allowedPerms ++ [perm], anyDenied, outstandingPerms, errs)
    | .ok false => (allowedPerms, true, outstandingPerms, errs)
    | .error .noMatchingRule => (allowedPerms, anyDenied, outstandingPerms ++ [perm], errs)
    | .error e => (allowedPerms, anyDenied, outstandingPerms, errs ++ [e])) ([], false, [], [])

end Matching

end Snapd.Requestrules
