import Snapd.Requestrules.Operations

/-! What the rule database keeps consistent between the rules list, the ID index and the
tree, as the comments of `RuleDB` and `variantEntry` in `requestrules.go` describe it; and
two runs of `AddRule` from the empty database after which it does not hold. -/

namespace Snapd.Requestrules

open Patterns Prompting

namespace RuleDB

variable (rdb : RuleDB)

/-- The database `New` builds when no rules are stored. -/
def empty : RuleDB := ⟨false, 0, ∅, [], ∅⟩

/-- The rule ID the tree records for the pattern string `str` of `user`, `snap` and `iface`. -/
def pathPatternAt (user : Nat) (snap iface str : List Char) : Option Nat := do
  let interfaceDB ← rdb.interfaceDBForUserSnapInterface user snap iface
  interfaceDB.pathPatterns.lookup str

/-- The entry of rule `id` at the variant `variantStr` of `permission` in the tree. -/
def ruleEntryAt (user : Nat) (snap iface permission variantStr : List Char) (id : Nat) :
    Option RulePermissionEntry := do
  let permissionDB ← rdb.permissionDBForUserSnapInterfacePermission user snap iface permission
  let entry ← permissionDB.variantEntries.lookup variantStr
  entry.ruleEntries.lookup id

/-- The consistency of the database at `now`. -/
structure Consistent (now : At) : Prop where
  /-- The index holds the position of every rule. -/
  index : ∀ i (h : i < rdb.rules.length), rdb.indexByID.lookup rdb.rules[i].id = some i
  /-- The index has no other keys. -/
  indexKeys : ∀ id ∈ rdb.indexByID, ∃ r ∈ rdb.rules, r.id = id
  /-- The tree records every rule under its pattern string. -/
  pathPatterns : ∀ r ∈ rdb.rules,
    rdb.pathPatternAt r.user r.snap r.iface r.constraints.pathPattern.original = some r.id
  /-- The pattern strings recorded are those of rules. -/
  pathPatternsBacked : ∀ user snap iface str id, rdb.pathPatternAt user snap iface str = some id →
    ∃ r ∈ rdb.rules, r.id = id ∧ r.user = user ∧ r.snap = snap ∧ r.iface = iface ∧
      r.constraints.pathPattern.original = str
  /-- Every variant of a rule holds the rule's entry under each of its permissions. -/
  ruleEntries : ∀ r ∈ rdb.rules, ∀ permission entry,
    r.constraints.permissions.lookup permission = some entry →
    ∀ v ∈ r.constraints.pathPattern.renderAllVariants,
      rdb.ruleEntryAt r.user r.snap r.iface permission v.2.variant r.id = some entry
  /-- Every rule entry in the tree is of a rule that has the permission. -/
  ruleEntriesBacked : ∀ user snap iface permission variantStr id,
    (rdb.ruleEntryAt user snap iface permission variantStr id).isSome →
    ∃ r ∈ rdb.rules, r.id = id ∧ r.user = user ∧ r.snap = snap ∧ r.iface = iface ∧
      permission ∈ r.constraints.permissions
  /-- The unexpired entries of a variant have its outcome. -/
  outcomes : ∀ user snap iface permission permissionDB,
    rdb.permissionDBForUserSnapInterfacePermission user snap iface permission = some permissionDB →
    ∀ variantStr entry, permissionDB.variantEntries.lookup variantStr = some entry →
    ∀ id e, entry.ruleEntries.lookup id = some e → e.expired now = false → e.outcome = entry.outcome

@[simp]
theorem empty_interfaceDB (user : Nat) (snap iface : List Char) :
    empty.interfaceDBForUserSnapInterface user snap iface = none := rfl

@[simp]
theorem empty_permissionDB (user : Nat) (snap iface permission : List Char) :
    empty.permissionDBForUserSnapInterfacePermission user snap iface permission = none := rfl

theorem empty_consistent (now : At) : empty.Consistent now where
  index _ h := absurd h (Nat.not_lt_zero _)
  indexKeys _ h := absurd h (AList.notMem_empty _)
  pathPatterns _ h := absurd h List.not_mem_nil
  pathPatternsBacked _ _ _ _ _ h := by simp [pathPatternAt] at h
  ruleEntries _ h := absurd h List.not_mem_nil
  ruleEntriesBacked _ _ _ _ _ _ h := by simp [ruleEntryAt] at h
  outcomes _ _ _ _ _ h := by simp at h

end RuleDB

/-! ## Runs that leave the database inconsistent

The environment keeps the user in one session, saves without failing, and parses no
duration: the rules below have none. -/

/-- The environment of a user in session `session`. -/
def sessionEnv (session : Nat) : Env := ⟨fun _ => .error "", fun _ => none, fun _ => .ok session⟩

/-- A pattern that parses, as `ParsePathPattern` returns it. -/
def patternOf (pattern : List Char) : PathPattern :=
  (parsePathPattern pattern).toOption.getD ⟨pattern, .literal pattern⟩

/-- A permission map with the given entries, in order. -/
def permissionsOf (entries : List (List Char × PermissionEntry)) : PermissionMap :=
  entries.foldl (fun acc entry => acc.insert entry.1 entry.2) ∅

/-- `/a/{b,c}` -/
def patternABC : List Char := ['/', 'a', '/', '\x7b', 'b', ',', 'c', '\x7d']

/-- `/a/{c,d}` -/
def patternACD : List Char := ['/', 'a', '/', '\x7b', 'c', ',', 'd', '\x7d']

/-- For `/a/{b,c}`: reading allowed for the session, and `other` allowed for ever. -/
def readForSessionAnd (other : List Char) : Constraints :=
  ⟨patternOf patternABC, permissionsOf [("read".toList, ⟨.outcomeAllow, .lifespanSession, []⟩),
    (other, ⟨.outcomeAllow, .lifespanForever, []⟩)]⟩

/-- For `/a/{c,d}`: each of `permissions` allowed for ever. -/
def allowForever (permissions : List (List Char)) : Constraints :=
  ⟨patternOf patternACD, permissionsOf (permissions.map (·, ⟨.outcomeAllow, .lifespanForever, []⟩))⟩

/-- For `/a/c`: writing denied for ever. -/
def denyWrite : Constraints :=
  ⟨patternOf ['/', 'a', '/', 'c'], permissionsOf [("write".toList, ⟨.outcomeDeny, .lifespanForever, []⟩)]⟩

/-- A rule for `/a/{b,c}` that allows reading for session 1 and writing for ever; then, in
session 2, a rule for `/a/{c,d}` that allows reading. The second rule prunes the expired
read permission from the first rule, but the tree keeps the first rule's read entry at
`/a/b`, which the second rule does not render. -/
theorem partially_expired_rule_keeps_stale_entry :
    RuleDB.empty.Consistent ⟨0, 1⟩ ∧
    let rdb1 := addRule (sessionEnv 1) RuleDB.empty 1000 "s".toList "home".toList
      (readForSessionAnd "write".toList) 0
    let rdb2 := addRule (sessionEnv 2) rdb1.1 1000 "s".toList "home".toList
      (allowForever ["read".toList]) 1
    rdb1.2.isOk ∧ rdb2.2.isOk ∧ ¬ rdb2.1.Consistent ⟨1, 2⟩ := by
  refine ⟨RuleDB.empty_consistent _, ?_⟩
  intro rdb1 rdb2
  refine ⟨by decide, by decide, fun h => ?_⟩
  -- rule 1 keeps its read entry at `/a/b`, but no rule 1 reads any more
  obtain ⟨r, hr, hid, -, -, -, hread⟩ := h.ruleEntriesBacked 1000 "s".toList "home".toList
    "read".toList ['/', 'a', '/', 'b'] 1 (by decide)
  have hnone : ∀ r ∈ rdb2.1.rules, r.id = 1 → "read".toList ∉ r.constraints.permissions := by
    decide
  exact hnone r hr hid hread

/-- In session 1, a rule for `/a/{b,c}` that allows reading for the session and executing for
ever, and a rule for `/a/c` that denies writing; then, in session 2, a rule for `/a/{c,d}`
that allows reading and writing. Adding it fails on the write conflict at `/a/c`, yet the
first rule has lost its read permission: the read permission was added to the tree before,
and pruned the first rule's expired entry. -/
theorem failed_addRule_prunes_other_rule :
    (addRule (sessionEnv 1) RuleDB.empty 1000 "s".toList "home".toList
      (readForSessionAnd "execute".toList) 0).2.isOk ∧
    let rdb1 := (addRule (sessionEnv 1) RuleDB.empty 1000 "s".toList "home".toList
      (readForSessionAnd "execute".toList) 0).1
    let rdb2 := addRule (sessionEnv 1) rdb1 1000 "s".toList "home".toList denyWrite 0
    let rdb3 := addRule (sessionEnv 2) rdb2.1 1000 "s".toList "home".toList
      (allowForever ["read".toList, "write".toList]) 1
    rdb2.2.isOk ∧ rdb3.2.isOk = false ∧
      rdb2.1.rules.map (fun r => r.constraints.permissions.keys) =
        [["read".toList, "execute".toList], ["write".toList]] ∧
      rdb3.1.rules.map (fun r => r.constraints.permissions.keys) =
        [["execute".toList], ["write".toList]] := by
  refine ⟨by decide, ?_⟩
  intro rdb1 rdb2 rdb3
  decide

end Snapd.Requestrules
