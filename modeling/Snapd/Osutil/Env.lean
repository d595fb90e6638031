import Mathlib.Data.List.TakeDrop
import Snapd.Lib.AssocList
import Snapd.Lib.SortSearch
import Snapd.Snap.Layout

/-! The environment of a process (`osutil/env.go`), and its passage through a setuid program.
The dynamic loader strips the variables of `unsafeEnv` from the environment of a setuid
program, so `ForExecEscapeUnsafe` renames them by prepending a prefix before the exec, and
`OSEnvironmentUnescapeUnsafe` strips the prefix again on the other side.

`ForExecEscapeUnsafe` sorts the names it passes on and finds the renamed ones as one block of
the sorted list, starting where `sort.SearchStrings` puts the prefix. That this block is right
rests on the order of strings: a name that is not below the prefix and does not start with it
is above every name that does. -/

namespace Snapd.Osutil

/-- Go's `==` on strings, through which membership in a list of strings is decided. -/
local instance lawfulBEqString : LawfulBEq (List Char) := inferInstance

open Snap (stringLess sortStrings)

/-- `Environment`: the value of each variable name. -/
abbrev Environment := List (List Char × List Char)

/-- `unsafeEnv`: the variables glibc strips out when running a setuid binary. -/
def unsafeEnv (key : List Char) : Bool :=
  ["GCONV_PATH", "GETCONF_DIR", "GLIBC_TUNABLES", "HOSTALIASES", "LD_AUDIT", "LD_DEBUG",
    "LD_DEBUG_OUTPUT", "LD_DYNAMIC_WEAK", "LD_HWCAP_MASK", "LD_LIBRARY_PATH", "LD_ORIGIN_PATH",
    "LD_PRELOAD", "LD_PROFILE", "LD_SHOW_AUXV", "LD_USE_LOAD_BIAS", "LOCALDOMAIN", "LOCPATH",
    "MALLOC_TRACE", "NIS_PATH", "NLSPATH", "RESOLV_HOST_CONF", "RES_OPTIONS", "SNAPD_LD_AUDIT",
    "SNAPD_LD_DEBUG", "SNAPD_LD_DEBUG_OUTPUT", "SNAPD_LD_DYNAMIC_WEAK", "SNAPD_LD_HWCAP_MASK",
    "SNAPD_LD_LIBRARY_PATH", "SNAPD_LD_ORIGIN_PATH", "SNAPD_LD_PRELOAD", "SNAPD_LD_PROFILE",
    "SNAPD_LD_SHOW_AUXV", "SNAPD_LD_USE_LOAD_BIAS", "TMPDIR", "TZDIR"].any
    fun name => name.toList == key

def trimPrefix (s pre : List Char) : List Char :=
  if pre.isPrefixOf s then s.drop pre.length else s

/-- `parseEnvEntry`: `key=value`, split at the first `=` as `strings.SplitN(entry, "=", 2)`. -/
def parseEnvEntry (entry : List Char) : Except String (List Char × List Char) :=
  match entry.span (· != '=') with
  | (_, []) => .error ("cannot parse environment entry: \"" ++ String.ofList entry ++ "\"")
  | (key, _ :: value) =>
    if key = [] then
      .error ("environment variable name cannot be empty: \"" ++ String.ofList entry ++ "\"")
    else .ok (key, value)

/-- One entry of `parseRawEnvironment`: a second value for a name is refused. -/
def parseStep (env : Environment) (entry : List Char) : Except String Environment := do
  let kv ← parseEnvEntry entry
  if (AssocList.find env kv.1).isSome then
    .error ("cannot overwrite earlier value of \"" ++ String.ofList kv.1 ++ "\"")
  else pure (AssocList.insert env kv.1 kv.2)

def parseRawEnvironment (raw : List (List Char)) : Except String Environment :=
  raw.foldlM parseStep []

/-- One turn of the loop of `OSEnvironmentUnescapeUnsafe`, at `key` with the value the map has
when the loop reaches it (none if an earlier turn deleted it). A key with the prefix is deleted
and its value set under the stripped name, unless that name has a value already. -/
def unescapeStep (unsafeEscapePrefix : List Char) (env : Environment) (key : List Char) :
    Environment :=
  match AssocList.find env key with
  | none => env
  | some value =>
    let newKey := trimPrefix key unsafeEscapePrefix
    if key ≠ newKey then
      let env := AssocList.erase env key
      if (AssocList.find env newKey).isSome then env
      else AssocList.insert env newKey value
    else env

/-- `OSEnvironmentUnescapeUnsafe` on the process environment `environ`. `order env` lists the
keys in the order in which `range` produces them: each key of `env`, and maybe keys the loop
adds, which Go may or may not produce. -/
def osEnvironmentUnescapeUnsafe (unsafeEscapePrefix : List Char) (environ : List (List Char))
    (order : Environment → List (List Char)) : Except String Environment := do
  let env ← parseRawEnvironment environ
  pure ((order env).foldl (unescapeStep unsafeEscapePrefix) env)

/-- One turn of the first loop of `ForExecEscapeUnsafe`: a key with the prefix is dropped, an
unsafe one gets the prefix, and `escaped` counts those. -/
def escapeStep (unsafeEscapePrefix : List Char) (acc : List (List Char) × Nat) (key : List Char) :
    List (List Char) × Nat :=
  if unsafeEscapePrefix.isPrefixOf key then acc
  else if unsafeEnv key then (acc.1 ++ [unsafeEscapePrefix ++ key], acc.2 + 1)
  else (acc.1 ++ [key], acc.2)

/-- The first loop of `ForExecEscapeUnsafe`, over the keys of the environment. -/
def escapeKeys (unsafeEscapePrefix : List Char) (keys : List (List Char)) :
    List (List Char) × Nat :=
  keys.foldl (escapeStep unsafeEscapePrefix) ([], 0)

/-- `sort.SearchStrings(a, x)`: the first index whose string is not below `x`. -/
def searchStrings (a : List (List Char)) (x : List Char) : Nat :=
  SortSearch.search a.length fun i => !stringLess (a.getD i []) x

/-- `Environment.ForExecEscapeUnsafe`: the entries `key=value`, sorted by key, of the variables
without the prefix, the unsafe ones renamed with it. -/
def forExecEscapeUnsafe (env : Environment) (unsafeEscapePrefix : List Char) : List (List Char) :=
  let acc := escapeKeys unsafeEscapePrefix (env.map Prod.fst)
  let keys := sortStrings acc.1
  let escaped := acc.2
  let firstEscaped := if escaped > 0 then searchStrings keys unsafeEscapePrefix else 0
  keys.zipIdx.map fun x =>
    let envKey :=
      if x.2 ≥ firstEscaped ∧ x.2 < firstEscaped + escaped then
        x.1.drop unsafeEscapePrefix.length
      else x.1
    x.1 ++ '=' :: (AssocList.find env envKey).getD []

section Prefix

variable {p k : List Char}

theorem isPrefixOf_append_self (p k : List Char) : p.isPrefixOf (p ++ k) = true := by
  rw [List.isPrefixOf_iff_prefix]
  exact List.prefix_append p k

theorem trimPrefix_append (p k : List Char) : trimPrefix (p ++ k) p = k := by
  rw [trimPrefix, if_pos (isPrefixOf_append_self p k), List.drop_left]

theorem trimPrefix_of_isPrefixOf_eq_false (h : p.isPrefixOf k = false) : trimPrefix k p = k := by
  rw [trimPrefix, if_neg (by simp [h])]

theorem append_trimPrefix (h : p.isPrefixOf k = true) : p ++ trimPrefix k p = k := by
  rw [trimPrefix, if_pos h]
  exact List.prefix_iff_eq_append.mp (List.isPrefixOf_iff_prefix.mp h)

theorem trimPrefix_ne (hp : p ≠ []) (h : p.isPrefixOf k = true) : k ≠ trimPrefix k p := by
  intro heq
  have hlen := congrArg List.length (append_trimPrefix h)
  rw [← heq, List.length_append] at hlen
  have : 0 < p.length := List.length_pos_of_ne_nil hp
  omega

end Prefix

theorem span_entry {key : List Char} (value : List Char) (h : '=' ∉ key) :
    (key ++ '=' :: value).span (· != '=') = (key, '=' :: value) := by
  rw [List.span_eq_takeWhile_dropWhile]
  induction key with
  | nil => simp
  | cons c key ih =>
    have hc : c ≠ '=' := fun hc => h (hc ▸ List.mem_cons_self ..)
    have hkey : '=' ∉ key := fun hk => h (List.mem_cons_of_mem _ hk)
    simp only [Prod.mk.injEq] at ih
    simp [hc, ih hkey]

theorem parseEnvEntry_entry {key : List Char} (value : List Char) (hne : key ≠ [])
    (h : '=' ∉ key) : parseEnvEntry (key ++ '=' :: value) = .ok (key, value) := by
  rw [parseEnvEntry, span_entry value h]
  simp [hne]

/-- `parseRawEnvironment` reads entries `key=value` with distinct names, none empty or with a
`=` in it, back as the map of those entries, in their order. -/
theorem foldlM_parseStep (entries : Environment) {acc : Environment}
    (hnodup : (acc.map Prod.fst ++ entries.map Prod.fst).Nodup)
    (hkeys : ∀ e ∈ entries, e.1 ≠ [] ∧ '=' ∉ e.1) :
    (entries.map fun e => e.1 ++ '=' :: e.2).foldlM parseStep acc = .ok (acc ++ entries) := by
  induction entries generalizing acc with
  | nil => simp only [List.map_nil, List.foldlM_nil, List.append_nil]; rfl
  | cons e entries ih =>
    have hnew : e.1 ∉ acc.map Prod.fst := by
      intro hmem
      have := List.disjoint_of_nodup_append hnodup hmem
      simp at this
    have hfind : AssocList.find acc e.1 = none := by
      rw [← Option.not_isSome_iff_eq_none, AssocList.isSome_find_iff]
      exact hnew
    have hstep : parseStep acc (e.1 ++ '=' :: e.2) = .ok (acc ++ [e]) := by
      obtain ⟨hne, heq⟩ := hkeys e List.mem_cons_self
      simp only [parseStep, parseEnvEntry_entry e.2 hne heq, bind, Except.bind, hfind,
        Option.isSome_none, Bool.false_eq_true, if_false, pure, Except.pure]
      rw [AssocList.insert_of_find_eq_none hfind]
    have hrest : ((acc ++ [e]).map Prod.fst ++ entries.map Prod.fst).Nodup := by
      simpa using hnodup
    rw [List.map_cons, List.foldlM_cons, hstep]
    simp only [bind, Except.bind]
    rw [ih hrest fun e he => hkeys e (List.mem_cons_of_mem _ he)]
    simp

theorem parseRawEnvironment_entries (entries : Environment) (hnodup : (entries.map Prod.fst).Nodup)
    (hkeys : ∀ e ∈ entries, e.1 ≠ [] ∧ '=' ∉ e.1) :
    parseRawEnvironment (entries.map fun e => e.1 ++ '=' :: e.2) = .ok entries := by
  rw [parseRawEnvironment]
  simpa using @foldlM_parseStep entries [] (by simpa using hnodup) hkeys

section Unescape

variable {p : List Char} (env₀ : Environment)

/-- What the loop has made of `find env₀ k` once it has visited the keys `done`: a visited key
with the prefix is gone, and a name without it has its own value or else the value of the
visited name with the prefix. -/
def unescapedFind (p : List Char) (done : List (List Char)) (k : List Char) : Option (List Char) :=
  if p.isPrefixOf k then (if k ∈ done then none else AssocList.find env₀ k)
  else (AssocList.find env₀ k).or (if p ++ k ∈ done then AssocList.find env₀ (p ++ k) else none)

theorem unescapedFind_nil (k : List Char) : unescapedFind env₀ p [] k = AssocList.find env₀ k := by
  unfold unescapedFind
  split <;> simp

theorem unescapedFind_append_of_ne {done : List (List Char)} {x k : List Char}
    (hk : p.isPrefixOf k = true → k ≠ x) (hpk : p ++ k ≠ x) :
    unescapedFind env₀ p (done ++ [x]) k = unescapedFind env₀ p done k := by
  unfold unescapedFind
  cases hpre : p.isPrefixOf k with
  | true =>
    have hmem : k ∈ done ++ [x] ↔ k ∈ done := by simp [hk hpre]
    simp only [if_true, hmem]
  | false =>
    have hpmem : p ++ k ∈ done ++ [x] ↔ p ++ k ∈ done := by simp [hpk]
    simp only [Bool.false_eq_true, if_false, hpmem]

theorem unescapedFind_append_of_not_new {done : List (List Char)} {x : List Char}
    (hx : x ∈ done ∨ AssocList.find env₀ x = none) (k : List Char) :
    unescapedFind env₀ p (done ++ [x]) k = unescapedFind env₀ p done k := by
  unfold unescapedFind
  cases hpre : p.isPrefixOf k with
  | true =>
    by_cases hkx : k = x
    · subst hkx
      rcases hx with hx | hx <;> simp [hx]
    · simp [hkx]
  | false =>
    by_cases hpk : p ++ k = x
    · subst hpk
      rcases hx with hx | hx <;> simp [hx]
    · simp [hpk]

theorem unescapeStep_of_isPrefixOf_eq_false (env : Environment) {key : List Char}
    (h : p.isPrefixOf key = false) : unescapeStep p env key = env := by
  unfold unescapeStep
  cases AssocList.find env key with
  | none => rfl
  | some value => simp [trimPrefix_of_isPrefixOf_eq_false h]

theorem unescapeStep_of_find_eq_none {env : Environment} {key : List Char}
    (h : AssocList.find env key = none) : unescapeStep p env key = env := by
  simp [unescapeStep, h]

theorem unescapeStep_of_find_eq_some (hp : p ≠ []) {env : Environment} {key value : List Char}
    (h : p.isPrefixOf key = true) (hv : AssocList.find env key = some value) :
    unescapeStep p env key =
      if (AssocList.find env (trimPrefix key p)).isSome then AssocList.erase env key
      else AssocList.insert (AssocList.erase env key) (trimPrefix key p) value := by
  have hne := trimPrefix_ne hp h
  simp only [unescapeStep, hv, ne_eq, hne, not_false_eq_true, if_true,
    AssocList.find_erase_of_ne env hne]

/-- The step: visiting `key` keeps `unescapedFind`, given that a key of `env₀` with the prefix
strips to a name without it. -/
theorem unescapedFind_unescapeStep (hp : p ≠ [])
    (hnest : ∀ k ∈ env₀.map Prod.fst, p.isPrefixOf k = true → p.isPrefixOf (trimPrefix k p) = false)
    {done : List (List Char)} {env : Environment}
    (h : ∀ k, AssocList.find env k = unescapedFind env₀ p done k) (key : List Char) (k : List Char) :
    AssocList.find (unescapeStep p env key) k = unescapedFind env₀ p (done ++ [key]) k := by
  cases hkey : p.isPrefixOf key with
  | false =>
    -- a name without the prefix is left as it is, and no name strips to it
    rw [unescapeStep_of_isPrefixOf_eq_false env hkey, h k]
    have hk : p.isPrefixOf k = true → k ≠ key := by
      rintro hpk rfl
      rw [hpk] at hkey
      cases hkey
    have hpk : p ++ k ≠ key := by
      rintro rfl
      rw [isPrefixOf_append_self] at hkey
      cases hkey
    rw [unescapedFind_append_of_ne env₀ hk hpk]
  | true =>
    cases hv : AssocList.find env key with
    | none =>
      have hx : key ∈ done ∨ AssocList.find env₀ key = none := by
        rw [h key, unescapedFind, if_pos hkey] at hv
        by_cases hdone : key ∈ done
        · exact .inl hdone
        · rw [if_neg hdone] at hv
          exact .inr hv
      rw [unescapeStep_of_find_eq_none hv, h k, unescapedFind_append_of_not_new env₀ hx k]
    | some value =>
      -- the first visit of a key of `env₀` with the prefix: it moves to the name it strips to
      have hdone : key ∉ done := by
        intro hdone
        rw [h key, unescapedFind, if_pos hkey, if_pos hdone] at hv
        cases hv
      have hv₀ : AssocList.find env₀ key = some value := by
        rw [h key, unescapedFind, if_pos hkey, if_neg hdone] at hv
        exact hv
      have hmem : key ∈ env₀.map Prod.fst :=
        (AssocList.isSome_find_iff env₀ key).mp (by rw [hv₀]; rfl)
      have hzpre : p.isPrefixOf (trimPrefix key p) = false := hnest key hmem hkey
      have hpz : p ++ trimPrefix key p = key := append_trimPrefix hkey
      have hkz : key ≠ trimPrefix key p := trimPrefix_ne hp hkey
      have hz : AssocList.find env (trimPrefix key p) = AssocList.find env₀ (trimPrefix key p) := by
        rw [h, unescapedFind, hzpre, hpz, if_neg hdone]
        simp
      rw [unescapeStep_of_find_eq_some hp hkey hv]
      by_cases hkk : k = key
      · have hgone : unescapedFind env₀ p (done ++ [key]) key = none := by
          simp [unescapedFind, hkey]
        rw [hkk, hgone]
        split
        · exact AssocList.find_erase_self env key
        · rw [AssocList.find_insert_of_ne _ _ (Ne.symm hkz), AssocList.find_erase_self]
      · by_cases hkz' : k = trimPrefix key p
        · -- the stripped name keeps its own value, or else takes the key's
          have hnew : unescapedFind env₀ p (done ++ [key]) (trimPrefix key p) =
              (AssocList.find env₀ (trimPrefix key p)).or (some value) := by
            simp [unescapedFind, hzpre, hpz, hv₀]
          rw [hkz', hnew]
          split
          · rename_i hsome
            rw [hz] at hsome
            obtain ⟨w, hw⟩ := Option.isSome_iff_exists.mp hsome
            rw [AssocList.find_erase_of_ne env hkz, hz, hw]
            rfl
          · rename_i hnone
            rw [hz, Option.not_isSome_iff_eq_none] at hnone
            rw [AssocList.find_insert_self, hnone]
            rfl
        · have hpk : p ++ k ≠ key := by
            intro hpk
            apply hkz'
            rw [← hpk, trimPrefix_append]
          rw [unescapedFind_append_of_ne env₀ (fun _ => hkk) hpk, ← h k]
          split
          · exact AssocList.find_erase_of_ne env (Ne.symm hkk)
          · rw [AssocList.find_insert_of_ne _ _ (Ne.symm hkz'),
              AssocList.find_erase_of_ne env (Ne.symm hkk)]

theorem find_foldl_unescapeStep_eq (hp : p ≠ [])
    (hnest : ∀ k ∈ env₀.map Prod.fst, p.isPrefixOf k = true → p.isPrefixOf (trimPrefix k p) = false)
    (keys : List (List Char)) {done : List (List Char)} {env : Environment}
    (h : ∀ k, AssocList.find env k = unescapedFind env₀ p done k) (k : List Char) :
    AssocList.find (keys.foldl (unescapeStep p) env) k = unescapedFind env₀ p (done ++ keys) k := by
  induction keys generalizing done env with
  | nil => simpa using h k
  | cons key keys ih =>
    rw [List.foldl_cons, ih (unescapedFind_unescapeStep env₀ hp hnest h key)]
    simp

theorem nodup_unescapeStep {env : Environment} (h : (env.map Prod.fst).Nodup) (key : List Char) :
    ((unescapeStep p env key).map Prod.fst).Nodup := by
  unfold unescapeStep
  cases AssocList.find env key with
  | none => exact h
  | some value =>
    dsimp only
    split
    · split
      · exact AssocList.nodup_keys_erase h key
      · exact AssocList.nodup_keys_insert (AssocList.nodup_keys_erase h key) _ _
    · exact h

theorem nodup_foldl_unescapeStep (keys : List (List Char)) {env : Environment}
    (h : (env.map Prod.fst).Nodup) : ((keys.foldl (unescapeStep p) env).map Prod.fst).Nodup := by
  induction keys generalizing env with
  | nil => exact h
  | cons key keys ih => exact ih (nodup_unescapeStep h key)

/-- The loop of `OSEnvironmentUnescapeUnsafe`, in any order that visits every key, strips the
prefix: no name with the prefix is left, and a name without it keeps its own value or else takes
the value of the name with the prefix. It rests on no key of `env₀` starting with the prefix
twice: the loop does not visit the names it adds. -/
theorem find_unescape (hp : p ≠ [])
    (hnest : ∀ k ∈ env₀.map Prod.fst, p.isPrefixOf k = true → p.isPrefixOf (trimPrefix k p) = false)
    {order : List (List Char)} (horder : ∀ k ∈ env₀.map Prod.fst, k ∈ order) (k : List Char) :
    AssocList.find (order.foldl (unescapeStep p) env₀) k =
      if p.isPrefixOf k then none
      else (AssocList.find env₀ k).or (AssocList.find env₀ (p ++ k)) := by
  rw [find_foldl_unescapeStep_eq env₀ hp hnest order (fun k => (unescapedFind_nil env₀ k).symm),
    List.nil_append]
  have hunvisited : ∀ x, x ∉ order → AssocList.find env₀ x = none := by
    intro x hx
    rw [← Option.not_isSome_iff_eq_none, AssocList.isSome_find_iff]
    exact fun hmem => hx (horder x hmem)
  unfold unescapedFind
  split
  · split
    · rfl
    · exact hunvisited k ‹_›
  · split
    · rfl
    · rw [hunvisited (p ++ k) ‹_›]

end Unescape

/-- The name under which `ForExecEscapeUnsafe` passes a variable on, if it does. -/
def escapedName (p key : List Char) : Option (List Char) :=
  if p.isPrefixOf key then none else some (if unsafeEnv key then p ++ key else key)

/-- The entry that `ForExecEscapeUnsafe` passes on for a variable, if any. -/
def escapedEntry (p : List Char) (e : List Char × List Char) : Option (List Char × List Char) :=
  (escapedName p e.1).map fun key => (key, e.2)

section Escape

variable {p : List Char}

theorem trimPrefix_of_escapedName {key y : List Char} (h : escapedName p key = some y) :
    trimPrefix y p = key := by
  unfold escapedName at h
  cases hpre : p.isPrefixOf key with
  | true => simp [hpre] at h
  | false =>
    simp only [hpre, Bool.false_eq_true, if_false, Option.some.injEq] at h
    subst h
    split
    · exact trimPrefix_append p key
    · exact trimPrefix_of_isPrefixOf_eq_false hpre

theorem foldl_escapeStep (keys : List (List Char)) (acc : List (List Char) × Nat) :
    keys.foldl (escapeStep p) acc =
      (acc.1 ++ keys.filterMap (escapedName p),
        acc.2 + keys.countP fun k => !p.isPrefixOf k && unsafeEnv k) := by
  induction keys generalizing acc with
  | nil => simp
  | cons key keys ih =>
    rw [List.foldl_cons, ih]
    cases hpre : p.isPrefixOf key with
    | true => simp [escapeStep, escapedName, hpre]
    | false =>
      cases hunsafe : unsafeEnv key with
      | false => simp [escapeStep, escapedName, hpre, hunsafe]
      | true =>
        -- the one case that escapes a name and counts it
        simp [escapeStep, escapedName, hpre, hunsafe]
        omega

theorem escapeKeys_eq (keys : List (List Char)) :
    escapeKeys p keys =
      (keys.filterMap (escapedName p), keys.countP fun k => !p.isPrefixOf k && unsafeEnv k) := by
  rw [escapeKeys]
  simpa using foldl_escapeStep keys ([], 0)

theorem nodup_filterMap_escapedName {keys : List (List Char)} (h : keys.Nodup) :
    (keys.filterMap (escapedName p)).Nodup := by
  apply h.filterMap
  intro a a' y ha ha'
  rw [← trimPrefix_of_escapedName ha, ← trimPrefix_of_escapedName ha']

theorem countP_isPrefixOf_filterMap (keys : List (List Char)) :
    (keys.filterMap (escapedName p)).countP p.isPrefixOf =
      keys.countP fun k => !p.isPrefixOf k && unsafeEnv k := by
  rw [List.countP_filterMap]
  apply List.countP_congr
  intro k _
  unfold escapedName
  cases hpre : p.isPrefixOf k with
  | true => simp
  | false => cases hunsafe : unsafeEnv k <;> simp [hpre, isPrefixOf_append_self]

/-- Where a name sorts against the prefix: below it, starting with it, or above every name that
starts with it. -/
def keyClass (p k : List Char) : Nat :=
  if stringLess k p then 0 else if p.isPrefixOf k then 1 else 2

theorem keyClass_lt_one_iff {k : List Char} : keyClass p k < 1 ↔ stringLess k p = true := by
  unfold keyClass
  split
  · simp [*]
  · split <;> simp [*]

theorem keyClass_eq_one_iff {k : List Char} : keyClass p k = 1 ↔ p.isPrefixOf k = true := by
  unfold keyClass
  split
  · rename_i hlt
    have hpre : p.isPrefixOf k ≠ true := by
      intro hpre
      rw [Snap.stringLess_of_isPrefixOf_eq_false hpre] at hlt
      cases hlt
    simp [hpre]
  · split <;> simp [*]

theorem keyClass_le_of_stringLess {a b : List Char} (hab : stringLess a b = true) :
    keyClass p a ≤ keyClass p b := by
  unfold keyClass
  by_cases hap : stringLess a p = true
  · simp [hap]
  · have hbp : ¬stringLess b p = true := fun hbp => hap (Snap.stringLess_trans hab hbp)
    by_cases hpa : p.isPrefixOf a = true
    · rw [if_neg hap, if_pos hpa, if_neg hbp]
      split <;> omega
    · -- `a` is above every name with the prefix, and `b` above `a`
      have hpb : ¬p.isPrefixOf b = true := by
        intro hpb
        have hba := Snap.stringLess_of_not_isPrefixOf (Bool.eq_false_iff.mpr hpa)
          (Bool.eq_false_iff.mpr hap) hpb
        rw [Snap.stringLess_asymm hab] at hba
        cases hba
      simp [hap, hbp, hpa, hpb]

section Sorted

variable {S : List (List Char)} (hS : S.Pairwise fun a b => stringLess a b = true)
include hS

theorem keyClass_pairwise : S.Pairwise fun a b => keyClass p a ≤ keyClass p b :=
  hS.imp keyClass_le_of_stringLess

theorem searchStrings_eq : searchStrings S p = S.countP fun k => keyClass p k < 1 := by
  apply SortSearch.search_eq List.countP_le_length
  intro i hi
  have hx : (S.getD i [], i) ∈ S.zipIdx := by
    rw [List.mem_zipIdx_iff_getElem?]
    simp [List.getD_eq_getElem?_getD, hi]
  have hlt := SortSearch.lt_iff_lt_countP (keyClass p) (keyClass_pairwise hS) 1 0 hx
  rw [keyClass_lt_one_iff, Nat.zero_add] at hlt
  rw [Bool.not_eq_true', ← Bool.not_eq_true, hlt]
  omega

theorem isPrefixOf_iff_mem_block {x : List Char × Nat} (hx : x ∈ S.zipIdx) :
    p.isPrefixOf x.1 = true ↔ S.countP (fun k => keyClass p k < 1) ≤ x.2 ∧
      x.2 < S.countP (fun k => keyClass p k < 1) + S.countP p.isPrefixOf := by
  have h1 := SortSearch.lt_iff_lt_countP (keyClass p) (keyClass_pairwise hS) 1 0 hx
  have h2 := SortSearch.lt_iff_lt_countP (keyClass p) (keyClass_pairwise hS) (1 + 1) 0 hx
  have hcount : S.countP (fun k => keyClass p k = 1) = S.countP p.isPrefixOf := by
    apply List.countP_congr
    intro k _
    simp [keyClass_eq_one_iff]
  rw [SortSearch.countP_lt_succ, hcount, Nat.zero_add] at h2
  rw [Nat.zero_add] at h1
  rw [← keyClass_eq_one_iff]
  have hle : keyClass p x.1 ≤ 2 := by
    unfold keyClass
    split
    · omega
    · split <;> omega
  constructor
  · intro heq
    exact ⟨by omega, h2.mp (by omega)⟩
  · rintro ⟨hlo, hhi⟩
    have hnot : ¬keyClass p x.1 < 1 := fun h => by have := h1.mp h; omega
    have hlt2 := h2.mpr hhi
    omega

end Sorted

/-- `ForExecEscapeUnsafe` passes on, in sorted order, each name `escapedName` gives, with the value
of the variable it names: its block of escaped names is exactly the names with the prefix. -/
theorem forExecEscapeUnsafe_eq (env : Environment) (hkeys : (env.map Prod.fst).Nodup) :
    forExecEscapeUnsafe env p =
      (sortStrings ((env.map Prod.fst).filterMap (escapedName p))).map fun key =>
        key ++ '=' :: (AssocList.find env (trimPrefix key p)).getD [] := by
  have hS := Snap.sortStrings_pairwise_lt (nodup_filterMap_escapedName (p := p) hkeys)
  have hcount : ((env.map Prod.fst).countP fun k => !p.isPrefixOf k && unsafeEnv k) =
      (sortStrings ((env.map Prod.fst).filterMap (escapedName p))).countP p.isPrefixOf := by
    rw [(Snap.sortStrings_perm _).countP_eq, countP_isPrefixOf_filterMap]
  unfold forExecEscapeUnsafe
  rw [escapeKeys_eq]
  dsimp only
  generalize sortStrings ((env.map Prod.fst).filterMap (escapedName p)) = S at hS hcount ⊢
  rw [hcount]
  conv_rhs => rw [← List.zipIdx_map_fst 0 S, List.map_map]
  apply List.map_congr_left
  intro x hx
  have hcond : (x.2 ≥ (if S.countP p.isPrefixOf > 0 then searchStrings S p else 0) ∧
      x.2 < (if S.countP p.isPrefixOf > 0 then searchStrings S p else 0) + S.countP p.isPrefixOf) ↔
      p.isPrefixOf x.1 = true := by
    rw [isPrefixOf_iff_mem_block hS hx]
    split
    · rw [searchStrings_eq hS]
    · omega
  simp only [Function.comp_apply, trimPrefix]
  by_cases hpre : p.isPrefixOf x.1 = true
  · rw [if_pos (hcond.mpr hpre), if_pos hpre]
  · rw [if_neg (fun h => hpre (hcond.mp h)), if_neg hpre]

/-- The map of the entries passed on finds under a name without the prefix the value of a safe
variable, and under the name with the prefix the value of an unsafe one. -/
theorem find_escaped_of_isPrefixOf_eq_false (hp : p ≠ []) (env : Environment) {k : List Char}
    (hk : p.isPrefixOf k = false) :
    AssocList.find (env.filterMap (escapedEntry p)) k =
        (if unsafeEnv k then none else AssocList.find env k) ∧
      AssocList.find (env.filterMap (escapedEntry p)) (p ++ k) =
        (if unsafeEnv k then AssocList.find env k else none) := by
  have hrename := AssocList.find_filterMap_rename env (r := escapedName p)
    (s := fun y => trimPrefix y p) fun _ _ h => trimPrefix_of_escapedName h
  have hname : escapedName p k = some (if unsafeEnv k then p ++ k else k) := by
    simp [escapedName, hk]
  have hfilter : env.filterMap (escapedEntry p) =
      env.filterMap fun e => (escapedName p e.1).map fun y => (y, e.2) := rfl
  rw [hfilter, hrename, hrename,trimPrefix_of_isPrefixOf_eq_false hk, trimPrefix_append, hname]
  cases unsafeEnv k <;> simp [hp]

theorem escaped_entries_perm (env : Environment) (hkeys : (env.map Prod.fst).Nodup) :
    ((sortStrings ((env.map Prod.fst).filterMap (escapedName p))).map fun key =>
        (key, (AssocList.find env (trimPrefix key p)).getD [])).Perm
      (env.filterMap (escapedEntry p)) := by
  have heq : ((env.map Prod.fst).filterMap (escapedName p)).map (fun key =>
      (key, (AssocList.find env (trimPrefix key p)).getD [])) = env.filterMap (escapedEntry p) := by
    rw [List.map_filterMap, List.filterMap_map]
    apply List.filterMap_congr
    intro e he
    simp only [Function.comp_apply, escapedEntry]
    cases hname : escapedName p e.1 with
    | none => rfl
    | some y =>
      have hfind : AssocList.find env e.1 = some e.2 :=
        (AssocList.find_eq_some_iff hkeys e.1 e.2).mpr he
      simp [trimPrefix_of_escapedName hname, hfind]
  rw [← heq]
  exact (Snap.sortStrings_perm _).map _

end Escape

/-- Unsafe-environment escaping round-trips. `ForExecEscapeUnsafe` passes on, sorted by name,
one entry for each variable without the prefix, under the prefixed name for an unsafe one; and
`OSEnvironmentUnescapeUnsafe` reads those entries back as the environment without the variables
that start with the prefix, whatever the order of its loop. -/
theorem forExecEscapeUnsafe_round_trip (env : Environment) (p : List Char) (hp : p ≠ [])
    (hpeq : '=' ∉ p) (hkeys : (env.map Prod.fst).Nodup)
    (hne : ∀ e ∈ env, e.1 ≠ [] ∧ '=' ∉ e.1) (order : Environment → List (List Char))
    (horder : ∀ m, ∀ k ∈ m.map Prod.fst, k ∈ order m) :
    (∃ entries : Environment,
        forExecEscapeUnsafe env p = entries.map (fun e => e.1 ++ '=' :: e.2) ∧
        (entries.map Prod.fst).Pairwise (fun a b => stringLess a b = true) ∧
        entries.Perm (env.filterMap (escapedEntry p))) ∧
      ∃ env', osEnvironmentUnescapeUnsafe p (forExecEscapeUnsafe env p) order = .ok env' ∧
        (env'.map Prod.fst).Nodup ∧
        ∀ k, AssocList.find env' k = if p.isPrefixOf k then none else AssocList.find env k := by
  set E := (env.map Prod.fst).filterMap (escapedName p) with hE
  set entries : Environment :=
    (sortStrings E).map fun key => (key, (AssocList.find env (trimPrefix key p)).getD [])
    with hentries
  have hkeysE : entries.map Prod.fst = sortStrings E := by
    simp [entries, List.map_map, Function.comp_def]
  have hnodupE : E.Nodup := nodup_filterMap_escapedName hkeys
  have hnodup : (entries.map Prod.fst).Nodup := by
    rw [hkeysE]
    exact (Snap.sortStrings_perm E).nodup_iff.mpr hnodupE
  have hraw : forExecEscapeUnsafe env p = entries.map (fun e => e.1 ++ '=' :: e.2) := by
    rw [forExecEscapeUnsafe_eq env hkeys, hentries, List.map_map]
    rfl
  have hperm : entries.Perm (env.filterMap (escapedEntry p)) := escaped_entries_perm env hkeys
  have hname : ∀ y ∈ entries.map Prod.fst, ∃ e ∈ env, escapedName p e.1 = some y := by
    intro y hy
    rw [hkeysE] at hy
    obtain ⟨k, hk, hky⟩ := List.mem_filterMap.mp ((Snap.sortStrings_perm E).subset hy)
    obtain ⟨e, he, rfl⟩ := List.mem_map.mp hk
    exact ⟨e, he, hky⟩
  have hwell : ∀ e ∈ entries, e.1 ≠ [] ∧ '=' ∉ e.1 := by
    intro e he
    obtain ⟨e', he', hy⟩ := hname e.1 (List.mem_map_of_mem he)
    obtain ⟨hne', heq'⟩ := hne e' he'
    unfold escapedName at hy
    split at hy
    · cases hy
    · split at hy
      · rw [← Option.some.inj hy]
        exact ⟨by simp [hne'], by simp [hpeq, heq']⟩
      · rw [← Option.some.inj hy]
        exact ⟨hne', heq'⟩
  have hnest : ∀ k ∈ entries.map Prod.fst, p.isPrefixOf k = true →
      p.isPrefixOf (trimPrefix k p) = false := by
    intro k hk _
    obtain ⟨e, _, hy⟩ := hname k hk
    rw [trimPrefix_of_escapedName hy]
    unfold escapedName at hy
    split at hy
    · cases hy
    · rename_i hpre
      exact Bool.eq_false_iff.mpr hpre
  have hparse := parseRawEnvironment_entries entries hnodup hwell
  refine ⟨⟨entries, hraw, hkeysE ▸ Snap.sortStrings_pairwise_lt hnodupE, hperm⟩,
    (order entries).foldl (unescapeStep p) entries, ?_,
    nodup_foldl_unescapeStep (order entries) hnodup, ?_⟩
  · rw [hraw, osEnvironmentUnescapeUnsafe, hparse]
    rfl
  · intro k
    rw [find_unescape entries hp hnest (horder entries) k]
    split
    · rfl
    · rename_i hk
      obtain ⟨h₁, h₂⟩ := find_escaped_of_isPrefixOf_eq_false hp env (Bool.eq_false_iff.mpr hk)
      rw [AssocList.find_perm hnodup hperm, AssocList.find_perm hnodup hperm, h₁, h₂]
      cases unsafeEnv k <;> simp

/-- An environment with a safe variable, an unsafe one and one that starts with the prefix. -/
def escapeDemoEnv : Environment :=
  [("PATH".toList, "/bin".toList), ("TMPDIR".toList, "/t".toList), ("X_LEFT".toList, "1".toList)]

theorem forExecEscapeUnsafe_round_trip_on_tmpdir :
    (∃ entries : Environment,
        forExecEscapeUnsafe escapeDemoEnv "X_".toList =
          entries.map (fun e => e.1 ++ '=' :: e.2) ∧
        (entries.map Prod.fst).Pairwise (fun a b => stringLess a b = true) ∧
        entries.Perm (escapeDemoEnv.filterMap (escapedEntry "X_".toList))) ∧
      ∃ env', osEnvironmentUnescapeUnsafe "X_".toList
          (forExecEscapeUnsafe escapeDemoEnv "X_".toList) (fun m => m.map Prod.fst) = .ok env' ∧
        (env'.map Prod.fst).Nodup ∧
        ∀ k, AssocList.find env' k =
          if "X_".toList.isPrefixOf k then none else AssocList.find escapeDemoEnv k :=
  forExecEscapeUnsafe_round_trip escapeDemoEnv "X_".toList (by decide) (by decide) (by decide)
    (by decide) (fun m => m.map Prod.fst) fun _ _ hk => hk

example : forExecEscapeUnsafe escapeDemoEnv "X_".toList =
    ["PATH=/bin".toList, "X_TMPDIR=/t".toList] := by decide

end Snapd.Osutil
