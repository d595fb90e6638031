import Snapd.Requestrules.Operations
import Snapd.Lib.FilterLoop

/-! Precedence when a request is matched: `Compare` orders the matching variants strictly and
totally, so `HighestPrecedencePattern` and `isPathPermAllowed` answer alike whatever order
Go's map iteration hands them the variants in. -/

namespace Snapd.Requestrules

open Patterns Prompting

section Tree

variable (rdb : RuleDB) (user : Nat) (snap iface permission : List Char)

theorem interfaceDB_modifyInterfaceDB (f : InterfaceDB → InterfaceDB) :
    (rdb.modifyInterfaceDB user snap iface f).interfaceDBForUserSnapInterface user snap iface =
      some (f ((rdb.interfaceDBForUserSnapInterface user snap iface).getD ⟨∅, ∅⟩)) := by
  simp only [RuleDB.modifyInterfaceDB, RuleDB.interfaceDBForUserSnapInterface, AList.lookup_insert,
    Option.bind_eq_bind, Option.bind_some]
  -- the missing levels are created empty, so each lookup on the way down is split
  cases rdb.perUser.lookup user with
  | none => rfl
  | some userDB =>
    simp only [Option.getD_some, Option.bind_some]
    cases userDB.perSnap.lookup snap with
    | none => rfl
    | some snapDB =>
      simp only [Option.getD_some, Option.bind_some]

theorem permissionDB_modifyPermissionDB (f : PermissionDB → PermissionDB) :
    (rdb.modifyPermissionDB user snap iface permission f).permissionDBForUserSnapInterfacePermission
        user snap iface permission =
      some (f ((rdb.permissionDBForUserSnapInterfacePermission user snap iface permission).getD ⟨∅⟩)) := by
  simp only [RuleDB.modifyPermissionDB, RuleDB.permissionDBForUserSnapInterfacePermission,
    interfaceDB_modifyInterfaceDB, Option.bind_eq_bind, Option.bind_some, AList.lookup_insert]
  cases rdb.interfaceDBForUserSnapInterface user snap iface <;> rfl

end Tree

section Matching

variable (doublestarMatch : List Char → List Char → Option Bool) (path : List Char) (now : At)

theorem pathPatternMatches_error {pattern : List Char} {e : String}
    (h : pathPatternMatches doublestarMatch pattern path = .error e) : e = errBadPattern := by
  unfold pathPatternMatches at h
  split at h
  · cases h
  · split at h
    · cases h
      rfl
    · cases h
    · split at h
      · cases h
      · split at h
        · cases h
          rfl
        · cases h

/-- What the loop of `isPathPermAllowed` does with one entry of the variant map. -/
def matchVerdict (entry : Σ _ : List Char, VariantEntry) : Except RuleError (Option PatternVariant) :=
  if entry.2.expired now then .ok none
  else
    match pathPatternMatches doublestarMatch entry.1 path with
    | .error err => .error (.message ("internal error: while matching path pattern: " ++ err))
    | .ok true => .ok (some entry.2.variant)
    | .ok false => .ok none

theorem matchingVariants_eq (variantMap : AList (fun _ : List Char => VariantEntry)) :
    matchingVariants doublestarMatch variantMap path now =
      FilterLoop.filterLoop (matchVerdict doublestarMatch path now) variantMap.entries := by
  unfold matchingVariants FilterLoop.filterLoop
  congr 1
  funext acc entry
  unfold FilterLoop.step matchVerdict
  by_cases he : entry.2.expired now
  · simp [he]
  · simp only [he, Bool.false_eq_true, if_false]
    cases pathPatternMatches doublestarMatch entry.1 path with
    | error err => rfl
    | ok matched => cases matched <;> rfl

theorem matchVerdict_error {entry : Σ _ : List Char, VariantEntry} {e : RuleError}
    (h : matchVerdict doublestarMatch path now entry = .error e) :
    e = .message ("internal error: while matching path pattern: " ++ errBadPattern) := by
  unfold matchVerdict at h
  split at h
  · cases h
  · split at h
    · next err hm =>
      cases h
      rw [pathPatternMatches_error doublestarMatch path hm]
    · cases h
    · cases h

theorem matchVerdict_eq_some {entry : Σ _ : List Char, VariantEntry} {v : PatternVariant}
    (h : matchVerdict doublestarMatch path now entry = .ok (some v)) :
    entry.2.expired now = false ∧ pathPatternMatches doublestarMatch entry.1 path = .ok true ∧
      v = entry.2.variant := by
  unfold matchVerdict at h
  by_cases he : entry.2.expired now
  · simp [he] at h
  · simp only [he, Bool.false_eq_true, if_false] at h
    cases hm : pathPatternMatches doublestarMatch entry.1 path with
    | error err => simp [hm] at h
    | ok matched =>
      cases matched
      · simp [hm] at h
      · simp only [hm, Except.ok.injEq, Option.some.injEq] at h
        exact ⟨by simpa using he, rfl, h.symm⟩

end Matching

section Order

variable {doublestarMatch : List Char → List Char → Option Bool}
  {find : List (Regex Char) → List Char → Option (List (List Char))} (hfind : Regex.SubmatchFinder find)
include hfind

/-- Replacing the variant map of a permission by a reordering of it leaves `isPathPermAllowed`
alike, as long as the variants that match the path are candidates for `Compare`. -/
theorem isPathPermAllowed_perm {rdb : RuleDB} {user : Nat} {snap iface path permission : List Char}
    {now : At} {pdb : PermissionDB} {m' : AList (fun _ : List Char => VariantEntry)}
    (hpdb : rdb.permissionDBForUserSnapInterfacePermission user snap iface permission = some pdb)
    (hp : m'.entries.Perm pdb.variantEntries.entries)
    (hcand : ∀ entry ∈ pdb.variantEntries.entries, entry.2.expired now = false →
      pathPatternMatches doublestarMatch entry.1 path = .ok true → Candidate path entry.2.variant) :
    isPathPermAllowed doublestarMatch find
        (rdb.modifyPermissionDB user snap iface permission fun _ => ⟨m'⟩)
        user snap iface path permission now =
      isPathPermAllowed doublestarMatch find rdb user snap iface path permission now := by
  unfold isPathPermAllowed
  rw [permissionDB_modifyPermissionDB, hpdb]
  simp only [matchingVariants_eq]
  rcases FilterLoop.filterLoop_perm (matchVerdict doublestarMatch path now)
      (fun _ _ h => matchVerdict_error doublestarMatch path now h) hp with
    ⟨h1, h2⟩ | ⟨r, r', h1, h2, hrr⟩
  · rw [h1, h2]
  · rw [h1, h2]
    have hcandR : ∀ v ∈ r, Candidate path v := by
      intro v hv
      obtain ⟨entry, hmem, hver⟩ := FilterLoop.mem_of_filterLoop_eq_ok _ h1 hv
      obtain ⟨hexp, hmatch, rfl⟩ := matchVerdict_eq_some doublestarMatch path now hver
      exact hcand entry (hp.mem_iff.mp hmem) hexp hmatch
    cases r with
    | nil => rw [List.nil_perm.mp hrr]
    | cons v vs =>
      cases r' with
      | nil => exact absurd hrr.eq_nil (List.cons_ne_nil _ _)
      | cons v' vs' =>
        dsimp only
        rw [highestPrecedencePattern_perm hfind hrr hcandR]
        cases highestPrecedencePattern find (v' :: vs') path with
        | error e => rfl
        | ok highest => simp only [AList.perm_lookup hp]

end Order

/-- On the parsed variants that match a path, `Compare` is antisymmetric, is `0` exactly on
equal component lists, and is transitive; so `HighestPrecedencePattern` answers alike for
every order of its input, and `isPathPermAllowed` for every order of the variant map. -/
theorem compare_strict_total_and_order_free
    (find : List (Regex Char) → List Char → Option (List (List Char)))
    (hfind : Regex.SubmatchFinder find) (path : List Char) (u v w : PatternVariant)
    (hu : Candidate path u) (hv : Candidate path v) (hw : Candidate path w) :
    (∃ r, u.compare find v path = .ok r ∧ v.compare find u path = .ok (-r)) ∧
    (u.compare find v path = .ok 0 ↔ u.components = v.components) ∧
    (u.compare find v path = .ok 1 → v.compare find w path = .ok 1 →
      u.compare find w path = .ok 1) ∧
    (∀ l l' : List PatternVariant, l.Perm l' → (∀ x ∈ l, Candidate path x) →
      highestPrecedencePattern find l path = highestPrecedencePattern find l' path) ∧
    (∀ (doublestarMatch : List Char → List Char → Option Bool) (rdb : RuleDB) (user : Nat)
      (snap iface permission : List Char) (now : At) (pdb : PermissionDB)
      (m' : AList (fun _ : List Char => VariantEntry)),
      rdb.permissionDBForUserSnapInterfacePermission user snap iface permission = some pdb →
      m'.entries.Perm pdb.variantEntries.entries →
      (∀ entry ∈ pdb.variantEntries.entries, entry.2.expired now = false →
        pathPatternMatches doublestarMatch entry.1 path = .ok true →
        Candidate path entry.2.variant) →
      isPathPermAllowed doublestarMatch find
          (rdb.modifyPermissionDB user snap iface permission fun _ => ⟨m'⟩)
          user snap iface path permission now =
        isPathPermAllowed doublestarMatch find rdb user snap iface path permission now) := by
  have hS : ThreeWay.StrictTotalOn (compareAt find path) {v | Candidate path v} :=
    compareAt_strictTotal hfind
  have huv := compare_eq_ok hfind hu hv
  obtain ⟨su, hsu⟩ := hu.1
  obtain ⟨sv, hsv⟩ := hv.1
  refine ⟨⟨_, huv, ?_⟩, ?_, ?_, fun l l' hp hl => highestPrecedencePattern_perm hfind hp hl,
    fun _ _ _ _ _ _ _ _ _ hpdb hp hcand => isPathPermAllowed_perm hfind hpdb hp hcand⟩
  · rw [compare_eq_ok hfind hv hu, hS.swap u hu v hv]
  · -- `0` means the same variant, and a parsed variant is fixed by its components
    rw [huv, Except.ok.injEq, hS.eq_zero u hu v hv]
    exact ⟨congrArg PatternVariant.components, PatternVariant.eq_of_components hsu hsv⟩
  · rw [huv, compare_eq_ok hfind hv hw, compare_eq_ok hfind hu hw]
    simp only [Except.ok.injEq]
    exact hS.trans u hu v hv w hw

theorem compare_strict_total_at_slash_a :
    let find := fun (rs : List (Regex Char)) (w : List Char) => (Regex.firstSplit rs w).map (w :: ·)
    let path := "/a".toList
    let u := (parsePatternVariant "/a".toList).toOption.getD ⟨[], [], []⟩
    let v := (parsePatternVariant "/*".toList).toOption.getD ⟨[], [], []⟩
    let w := (parsePatternVariant "/**".toList).toOption.getD ⟨[], [], []⟩
    Candidate path u ∧ Candidate path v ∧ Candidate path w ∧
    (∃ r, u.compare find v path = .ok r ∧ v.compare find u path = .ok (-r)) ∧
    (u.compare find v path = .ok 0 ↔ u.components = v.components) ∧
    (u.compare find v path = .ok 1 → v.compare find w path = .ok 1 →
      u.compare find w path = .ok 1) ∧
    (∀ l l' : List PatternVariant, l.Perm l' → (∀ x ∈ l, Candidate path x) →
      highestPrecedencePattern find l path = highestPrecedencePattern find l' path) ∧
    (∀ (doublestarMatch : List Char → List Char → Option Bool) (rdb : RuleDB) (user : Nat)
      (snap iface permission : List Char) (now : At) (pdb : PermissionDB)
      (m' : AList (fun _ : List Char => VariantEntry)),
      rdb.permissionDBForUserSnapInterfacePermission user snap iface permission = some pdb →
      m'.entries.Perm pdb.variantEntries.entries →
      (∀ entry ∈ pdb.variantEntries.entries, entry.2.expired now = false →
        pathPatternMatches doublestarMatch entry.1 path = .ok true →
        Candidate path entry.2.variant) →
      isPathPermAllowed doublestarMatch find
          (rdb.modifyPermissionDB user snap iface permission fun _ => ⟨m'⟩)
          user snap iface path permission now =
        isPathPermAllowed doublestarMatch find rdb user snap iface path permission now) := by
  intro find path u v w
  -- a literal, a `*` and a `**` variant, each split against `/a` by firstSplit
  have hu : Candidate path u :=
    ⟨⟨"/a".toList, rfl⟩, [['/'], ['a'], []], Regex.firstSplit_sound rfl⟩
  have hv : Candidate path v :=
    ⟨⟨"/*".toList, rfl⟩, [['/'], ['a'], []], Regex.firstSplit_sound rfl⟩
  have hw : Candidate path w :=
    ⟨⟨"/**".toList, rfl⟩, [['/', 'a']], Regex.firstSplit_sound rfl⟩
  exact ⟨hu, hv, hw, compare_strict_total_and_order_free find Regex.submatchFinder_firstSplit path
    u v w hu hv hw⟩

/-! ## Where the two matchers disagree

`PathPatternMatches` asks `doublestar`, in which `/**` matches any number of whole path
segments; the regex of a variant has `.` in `(?:/.+)?`, which in Go does not match a newline. -/

/-- For `/**` and the path `/a⏎b`, `doublestar` matches and the regex does not: `Compare`
then fails on the variant with its internal error, whatever it is compared with. -/
theorem doublestar_matches_where_regex_does_not
    (doublestarMatch : List Char → List Char → Option Bool)
    (hglob : ∀ segments : List (List Char), (∀ s ∈ segments, s ≠ [] ∧ '/' ∉ s) →
      doublestarMatch ['/', '*', '*'] ('/' :: List.intercalate ['/'] segments) = some true)
    (find : List (Regex Char) → List Char → Option (List (List Char)))
    (hfind : Regex.SubmatchFinder find) :
    let path := ['/', 'a', '\n', 'b']
    ∃ p v, parsePathPattern ['/', '*', '*'] = .ok p ∧ p.renderAllVariants = [(0, v)] ∧
      pathPatternMatches doublestarMatch v.variant path = .ok true ∧
      (¬ ∃ subs, Regex.Splits v.regex path subs) ∧
      ∀ w, v.compare find w path =
        .error (compareError "no matches for pattern variant against given path:" v path) := by
  intro path
  let v := (parsePatternVariant ['/', '*', '*']).toOption.getD ⟨[], [], []⟩
  have hvariant : v.variant = ['/', '*', '*'] := rfl
  have hno : ¬ ∃ subs, Regex.Splits v.regex path subs := fun ⟨_, h⟩ =>
    Regex.firstSplit_complete h (by decide)
  refine ⟨(parsePathPattern ['/', '*', '*']).toOption.getD ⟨[], .literal []⟩, v, rfl, rfl, ?_, hno,
    fun w => ?_⟩
  · have hmatch : doublestarMatch ['/', '*', '*'] path = some true :=
      hglob [['a', '\n', 'b']] (by decide)
    rw [hvariant]
    simp [pathPatternMatches, hmatch]
  · rw [PatternVariant.compare, (hfind.none_iff v.regex path).mpr hno]

theorem doublestar_matches_where_regex_does_not_at_newline :
    let path := ['/', 'a', '\n', 'b']
    ∃ p v, parsePathPattern ['/', '*', '*'] = .ok p ∧ p.renderAllVariants = [(0, v)] ∧
      pathPatternMatches (fun _ _ => some true) v.variant path = .ok true ∧
      (¬ ∃ subs, Regex.Splits v.regex path subs) ∧
      ∀ w, v.compare (fun rs w => (Regex.firstSplit rs w).map (w :: ·)) w path =
        .error (compareError "no matches for pattern variant against given path:" v path) :=
  doublestar_matches_where_regex_does_not (fun _ _ => some true) (fun _ _ => rfl) _
    Regex.submatchFinder_firstSplit

end Snapd.Requestrules
