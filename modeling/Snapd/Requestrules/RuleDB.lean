import Snapd.Prompting.Constraints
import Snapd.Patterns.Matching

/-! The request rule database (`interfaces/prompting/requestrules/requestrules.go`): the rules
with their ID index, and the tree from user, snap, interface and permission to the variants
of the rules' path patterns. This module has the data, the lookups, and the operations on
the rules list and on the tree; `Requestrules.Operations` builds the rule operations on them.

Rules are values: where the source mutates a rule through its pointer, the model updates the
rule stored in the list. -/

namespace Snapd.Requestrules

/-- Go's `==` on strings, through which membership in a list of strings is decided. -/
local instance lawfulBEqString : LawfulBEq (List Char) := inferInstance

open Patterns Prompting

structure Rule where
  id : Nat
  timestamp : Int
  user : Nat
  snap : List Char
  iface : List Char
  constraints : RuleConstraints

/-- `variantEntry`: a rendered variant, the outcome of its rules, and the entry of each rule
whose pattern renders to it. -/
structure VariantEntry where
  variant : PatternVariant
  outcome : OutcomeType
  ruleEntries : AList (fun _ : Nat => RulePermissionEntry)

/-- `variantEntry.expired`: every rule entry has expired. -/
def VariantEntry.expired (e : VariantEntry) (now : At) : Bool :=
  e.ruleEntries.entries.all fun entry => entry.2.expired now

/-- `permissionDB`, keyed by the variant string. -/
structure PermissionDB where
  variantEntries : AList (fun _ : List Char => VariantEntry)

structure InterfaceDB where
  perPermission : AList (fun _ : List Char => PermissionDB)
  pathPatterns : AList (fun _ : List Char => Nat)

structure SnapDB where
  perInterface : AList (fun _ : List Char => InterfaceDB)

structure UserDB where
  perSnap : AList (fun _ : List Char => SnapDB)

/-- `RuleDB`: whether the max ID mmap is closed and the ID it holds, the rules and their
index, and the tree. -/
structure RuleDB where
  closed : Bool
  maxID : Nat
  indexByID : AList (fun _ : Nat => Nat)
  rules : List Rule
  perUser : AList (fun _ : Nat => UserDB)

structure RuleConflict where
  permission : List Char
  variant : List Char
  conflictingID : String
  deriving DecidableEq, Repr

/-- The errors the rule database returns. -/
inductive RuleError where
  | ruleNotFound
  | ruleNotAllowed
  | ruleIDConflict
  | ruleDBInconsistent
  | promptingClosed
  | noMatchingRule
  | ruleConflict (conflicts : List RuleConflict)
  | message (text : String)
  | wrapped (context : String) (err : RuleError)
  | joined (errs : List RuleError)
  deriving Repr

/-- The text of an error, as `Error()` gives it. -/
def RuleError.text : RuleError → String
  | .ruleNotFound => "cannot find rule with the given ID"
  | .ruleNotAllowed => "user not allowed to request the rule with the given ID"
  | .ruleIDConflict => "internal error: rule with conflicting ID already exists in the rule database"
  | .ruleDBInconsistent => "internal error: interfaces requests rule database left inconsistent"
  | .promptingClosed => "prompting subsystem has already been closed"
  | .noMatchingRule => "no rule matches the given path"
  | .ruleConflict _ => "a rule with conflicting path pattern and permission already exists in the rule database"
  | .message text => text
  | .wrapped context err => context ++ ": " ++ err.text
  | .joined errs => String.intercalate "\n" (errs.attach.map fun ⟨e, _⟩ => e.text)

namespace RuleDB

variable (rdb : RuleDB)

def interfaceDBForUserSnapInterface (user : Nat) (snap iface : List Char) : Option InterfaceDB := do
  let userRules ← rdb.perUser.lookup user
  let snapRules ← userRules.perSnap.lookup snap
  snapRules.perInterface.lookup iface

def permissionDBForUserSnapInterfacePermission (user : Nat) (snap iface permission : List Char) :
    Option PermissionDB := do
  let interfaceRules ← rdb.interfaceDBForUserSnapInterface user snap iface
  interfaceRules.perPermission.lookup permission

/-- Writing through the interface DB of `user`, `snap` and `iface`, which is created with the
levels above it when missing, as `ensurePermissionDBForUserSnapInterfacePermission` does. -/
def modifyInterfaceDB (user : Nat) (snap iface : List Char) (f : InterfaceDB → InterfaceDB) :
    RuleDB :=
  let userSnaps := (rdb.perUser.lookup user).getD ⟨∅⟩
  let snapInterfaces := (userSnaps.perSnap.lookup snap).getD ⟨∅⟩
  let interfacePerms := (snapInterfaces.perInterface.lookup iface).getD ⟨∅, ∅⟩
  { rdb with perUser := rdb.perUser.insert user (⟨userSnaps.perSnap.insert snap
      ⟨snapInterfaces.perInterface.insert iface (f interfacePerms)⟩⟩ : UserDB) }

/-- Writing through the permission DB of `user`, `snap`, `iface` and `permission`, which is
created when missing. -/
def modifyPermissionDB (user : Nat) (snap iface permission : List Char)
    (f : PermissionDB → PermissionDB) : RuleDB :=
  rdb.modifyInterfaceDB user snap iface fun i =>
    { i with perPermission :=
        i.perPermission.insert permission (f ((i.perPermission.lookup permission).getD ⟨∅⟩)) }

def ensurePermissionDBForUserSnapInterfacePermission (user : Nat) (snap iface permission : List Char) :
    RuleDB :=
  rdb.modifyPermissionDB user snap iface permission id

def lookupRuleByID (id : Nat) : Except RuleError Rule :=
  match rdb.indexByID.lookup id with
  | none => .error .ruleNotFound
  | some index =>
    match rdb.rules[index]? with
    | none => .error .ruleDBInconsistent
    | some rule => .ok rule

def lookupRuleByIDForUser (user id : Nat) : Except RuleError Rule :=
  match rdb.lookupRuleByID id with
  | .error e => .error e
  | .ok rule => if rule.user ≠ user then .error .ruleNotAllowed else .ok rule

/-- `addRuleToRulesList`: appended, with its index recorded. -/
def addRuleToRulesList (rule : Rule) : Except RuleError RuleDB :=
  if rule.id ∈ rdb.indexByID then .error .ruleIDConflict
  else .ok { rdb with rules := rdb.rules ++ [rule],
                      indexByID := rdb.indexByID.insert rule.id rdb.rules.length }

/-- `removeRuleByIDFromRulesList`: the last rule is moved into the freed index. -/
def removeRuleByIDFromRulesList (id : Nat) : Except RuleError (Rule × RuleDB) :=
  match rdb.indexByID.lookup id with
  | none => .error .ruleNotFound
  | some index =>
    match rdb.rules[index]?, rdb.rules.getLast? with
    | some rule, some last =>
      .ok (rule, { rdb with rules := (rdb.rules.set index last).dropLast,
                            indexByID := (rdb.indexByID.insert last.id index).erase id })
    | _, _ => .error .ruleDBInconsistent

/-- The stored rule with ID `id` changed by `f`, as a write through its pointer. -/
def modifyRule (id : Nat) (f : Rule → Rule) : RuleDB :=
  match rdb.indexByID.lookup id with
  | none => rdb
  | some index => { rdb with rules := rdb.rules.modify index f }

/-- `lookupRuleByPathPattern`: the rule of the same user, snap and interface with the same
pattern string, if any. -/
def lookupRuleByPathPattern (user : Nat) (snap iface : List Char) (constraints : RuleConstraints) :
    Except RuleError (Option Rule) :=
  match rdb.interfaceDBForUserSnapInterface user snap iface with
  | none => .ok none
  | some interfaceDB =>
    match interfaceDB.pathPatterns.lookup constraints.pathPattern.original with
    | none => .ok none
    | some ruleID =>
      match rdb.lookupRuleByID ruleID with
      | .error e => .error e
      | .ok rule => .ok (some rule)

end RuleDB

/-- The `removeVariant` closure on one variant string: the rule's entry goes, and the variant
entry with it once no rule is left. -/
def PermissionDB.removeVariantRule (id : Nat) (variantStr : List Char) (pdb : PermissionDB) :
    PermissionDB :=
  match pdb.variantEntries.lookup variantStr with
  | none => pdb
  | some entry =>
    let ruleEntries := entry.ruleEntries.erase id
    if ruleEntries.entries.isEmpty then ⟨pdb.variantEntries.erase variantStr⟩
    else ⟨pdb.variantEntries.insert variantStr { entry with ruleEntries }⟩

/-- `removeRulePermissionFromTree`: the rule's entry is removed from every variant of its
pattern under `permission`. -/
def removeRulePermissionFromTree (rdb : RuleDB) (rule : Rule) (permission : List Char) :
    Except String RuleDB :=
  match rdb.permissionDBForUserSnapInterfacePermission rule.user rule.snap rule.iface permission with
  | none =>
    .error ("internal error: no rules in the rule tree for user " ++ toString rule.user ++
      ", snap " ++ quoted rule.snap ++ ", interface " ++ quoted rule.iface ++
      ", permission " ++ quoted permission)
  | some _ =>
    let step := fun (acc : RuleDB × List (List Char)) (observed : Nat × PatternVariant) =>
      let variantStr := observed.2.variant
      if variantStr ∈ acc.2 then acc
      else (acc.1.modifyPermissionDB rule.user rule.snap rule.iface permission
          (PermissionDB.removeVariantRule rule.id variantStr), variantStr :: acc.2)
    .ok (rule.constraints.pathPattern.renderAllVariants.foldl step (rdb, [])).1

def joinInternalErrors (errs : List String) : Option String :=
  if errs.isEmpty then none
  else some (RuleError.ruleDBInconsistent.text ++ "\n" ++ String.intercalate "\n" errs)

/-- `removeRuleFromTree`: every permission of the rule, then its pattern string, even when a
permission fails. -/
def removeRuleFromTree (rdb : RuleDB) (rule : Rule) : RuleDB × Option String :=
  let step := fun (acc : RuleDB × List String) (entry : Σ _ : List Char, RulePermissionEntry) =>
    match removeRulePermissionFromTree acc.1 rule entry.1 with
    | .ok rdb' => (rdb', acc.2)
    | .error e => (acc.1, acc.2 ++ [e])
  let (rdb, errs) := rule.constraints.permissions.entries.foldl step (rdb, [])
  let rdb := match rdb.interfaceDBForUserSnapInterface rule.user rule.snap rule.iface with
    | none => rdb
    | some _ => rdb.modifyInterfaceDB rule.user rule.snap rule.iface fun i =>
        { i with pathPatterns := i.pathPatterns.erase rule.constraints.pathPattern.original }
  (rdb, joinInternalErrors errs)

/-- `removeRuleByID`: out of the list, then out of the tree. -/
def removeRuleByID (rdb : RuleDB) (id : Nat) : Except RuleError (Rule × RuleDB) :=
  match rdb.removeRuleByIDFromRulesList id with
  | .error e => .error e
  | .ok (rule, rdb) => .ok (rule, (removeRuleFromTree rdb rule).1)

/-- What the `addVariant` closure gathers: the new variant entries, the IDs of rules met with
an expired entry, and the conflicts. -/
structure AddVariantAcc where
  newVariantEntries : AList (fun _ : List Char => VariantEntry)
  partiallyExpiredRules : AList (fun _ : Nat => Unit)
  conflicts : List RuleConflict

/-- The `addVariant` closure of `addRulePermissionToTree` on one rendered variant. An existing
entry of the variant is rebuilt with the new rule's entry first, then each unexpired rule
entry of the same outcome; an expired one is dropped and its rule noted, one of the other
outcome is a conflict. -/
def addVariant (permVariants : PermissionDB) (rule : Rule) (permission : List Char)
    (permissionEntry : RulePermissionEntry) (now : At) (acc : AddVariantAcc)
    (variant : PatternVariant) : AddVariantAcc :=
  let variantStr := variant.variant
  let fresh : AList (fun _ : Nat => RulePermissionEntry) := (∅ : AList _).insert rule.id permissionEntry
  match permVariants.variantEntries.lookup variantStr with
  | none =>
    { acc with newVariantEntries :=
        acc.newVariantEntries.insert variantStr ⟨variant, permissionEntry.outcome, fresh⟩ }
  | some existingEntry =>
    let step := fun (st : AList (fun _ : Nat => RulePermissionEntry) × AddVariantAcc)
        (entry : Σ _ : Nat, RulePermissionEntry) =>
      if entry.2.expired now then
        (st.1, { st.2 with partiallyExpiredRules := st.2.partiallyExpiredRules.insert entry.1 () })
      else if existingEntry.outcome = permissionEntry.outcome then
        (st.1.insert entry.1 entry.2, st.2)
      else
        (st.1, { st.2 with conflicts :=
          st.2.conflicts ++ [⟨permission, variantStr, idString entry.1⟩] })
    let (ruleEntries, acc) := existingEntry.ruleEntries.entries.foldl step (fresh, acc)
    { acc with newVariantEntries :=
        acc.newVariantEntries.insert variantStr ⟨variant, permissionEntry.outcome, ruleEntries⟩ }

/-- The loop of `addRulePermissionToTree` over rules met with an expired entry: a rule with
an unexpired permission loses `permission`, a fully expired rule is removed. -/
def pruneExpiredRule (rule : Rule) (permission : List Char) (now : At) (rdb : RuleDB)
    (ruleID : Nat) : RuleDB :=
  match rdb.lookupRuleByIDForUser rule.user ruleID with
  | .error _ => rdb
  | .ok maybeExpired =>
    if !maybeExpired.constraints.permissions.expired now then
      rdb.modifyRule ruleID fun r =>
        { r with constraints := { r.constraints with
            permissions := r.constraints.permissions.erase permission } }
    else
      match removeRuleByID rdb ruleID with
      | .ok (_, rdb') => rdb'
      | .error _ => rdb

/-- `addRulePermissionToTree`: the variants of the rule's pattern under `permission`. On a
conflict only the creation of the permission DB remains; otherwise the rules met with expired
entries are pruned or removed, and the new variant entries are written. -/
def addRulePermissionToTree (rdb : RuleDB) (rule : Rule) (permission : List Char)
    (permissionEntry : RulePermissionEntry) (now : At) : RuleDB × List RuleConflict :=
  let rdb := rdb.ensurePermissionDBForUserSnapInterfacePermission rule.user rule.snap rule.iface
    permission
  let permVariants :=
    (rdb.permissionDBForUserSnapInterfacePermission rule.user rule.snap rule.iface permission).getD ⟨∅⟩
  let acc := rule.constraints.pathPattern.renderAllVariants.foldl
    (fun acc observed => addVariant permVariants rule permission permissionEntry now acc observed.2)
    ⟨∅, ∅, []⟩
  if !acc.conflicts.isEmpty then (rdb, acc.conflicts)
  else
    let rdb := acc.partiallyExpiredRules.keys.foldl (pruneExpiredRule rule permission now) rdb
    let rdb := acc.newVariantEntries.entries.foldl (fun rdb entry =>
      rdb.modifyPermissionDB rule.user rule.snap rule.iface permission fun p =>
        ⟨p.variantEntries.insert entry.1 entry.2⟩) rdb
    (rdb, [])

/-- `addRuleToTree`: every permission of the rule; if any conflicts, the permissions added
before are removed again, else the pattern string is recorded for the rule. -/
def addRuleToTree (rdb : RuleDB) (rule : Rule) (now : At) : RuleDB × Option (List RuleConflict) :=
  let step := fun (acc : RuleDB × List (List Char) × List RuleConflict)
      (entry : Σ _ : List Char, RulePermissionEntry) =>
    let (rdb', permConflicts) := addRulePermissionToTree acc.1 rule entry.1 entry.2 now
    if !permConflicts.isEmpty then (rdb', acc.2.1, acc.2.2 ++ permConflicts)
    else (rdb', acc.2.1 ++ [entry.1], acc.2.2)
  let (rdb, addedPermissions, conflicts) := rule.constraints.permissions.entries.foldl step (rdb, [], [])
  if !conflicts.isEmpty then
    let rdb := addedPermissions.foldl (fun rdb prevPerm =>
      match removeRulePermissionFromTree rdb rule prevPerm with
      | .ok rdb' => rdb'
      | .error _ => rdb) rdb
    (rdb, some conflicts)
  else
    (rdb.modifyInterfaceDB rule.user rule.snap rule.iface fun i =>
      { i with pathPatterns := i.pathPatterns.insert rule.constraints.pathPattern.original rule.id },
     none)

end Snapd.Requestrules
