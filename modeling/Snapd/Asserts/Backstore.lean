import Snapd.Naming.Validate
import Mathlib.Data.List.Dedup
import Snapd.Lib.Run

/-! The assertion types of `asserts/asserts.go`, assertions as the database reads them, and the
memory backstore of `asserts/membackstore.go`. The backstore keeps, under each type, primary key
and format, the assertion last put there; a put must bring a revision above the current one,
the latest revision among the formats the type supports. -/

namespace Snapd.Asserts

/-- The registered assertion types, `typeRegistry`. -/
inductive AssertionType where
  | account | accountKey | model | serial | baseDeclaration | snapDeclaration | snapBuild
  | snapRevision | snapDeveloper | systemUser | validation | validationSet | repair | store
  | preseed | snapResourceRevision | snapResourcePair | confdbSchema | cluster | requestMessage
  | hardwareIdentity
  -- no authority
  | deviceSessionRequest | serialRequest | accountKeyRequest | confdbControl | responseMessage
  deriving DecidableEq, Repr

namespace AssertionType

def name : AssertionType → List Char
  | account => "account".toList
  | accountKey => "account-key".toList
  | model => "model".toList
  | serial => "serial".toList
  | baseDeclaration => "base-declaration".toList
  | snapDeclaration => "snap-declaration".toList
  | snapBuild => "snap-build".toList
  | snapRevision => "snap-revision".toList
  | snapDeveloper => "snap-developer".toList
  | systemUser => "system-user".toList
  | validation => "validation".toList
  | validationSet => "validation-set".toList
  | repair => "repair".toList
  | store => "store".toList
  | preseed => "preseed".toList
  | snapResourceRevision => "snap-resource-revision".toList
  | snapResourcePair => "snap-resource-pair".toList
  | confdbSchema => "confdb-schema".toList
  | cluster => "cluster".toList
  | requestMessage => "request-message".toList
  | hardwareIdentity => "hardware-identity".toList
  | deviceSessionRequest => "device-session-request".toList
  | serialRequest => "serial-request".toList
  | accountKeyRequest => "account-key-request".toList
  | confdbControl => "confdb-control".toList
  | responseMessage => "response-message".toList

/-- `PrimaryKey`: the headers whose values identify an assertion of the type. -/
def primaryKey : AssertionType → List (List Char)
  | account => ["account-id".toList]
  | accountKey => ["public-key-sha3-384".toList]
  | model => ["series".toList, "brand-id".toList, "model".toList]
  | serial => ["brand-id".toList, "model".toList, "serial".toList]
  | baseDeclaration => ["series".toList]
  | snapDeclaration => ["series".toList, "snap-id".toList]
  | snapBuild => ["snap-sha3-384".toList]
  | snapRevision => ["snap-sha3-384".toList, "provenance".toList]
  | snapDeveloper => ["snap-id".toList, "publisher-id".toList]
  | systemUser => ["brand-id".toList, "email".toList]
  | validation =>
    ["series".toList, "snap-id".toList, "approved-snap-id".toList, "approved-snap-revision".toList]
  | validationSet => ["series".toList, "account-id".toList, "name".toList, "sequence".toList]
  | repair => ["brand-id".toList, "repair-id".toList]
  | store => ["store".toList]
  | preseed => ["series".toList, "brand-id".toList, "model".toList, "system-label".toList]
  | snapResourceRevision =>
    ["snap-id".toList, "resource-name".toList, "resource-sha3-384".toList, "provenance".toList]
  | snapResourcePair =>
    ["snap-id".toList, "resource-name".toList, "resource-revision".toList,
      "snap-revision".toList, "provenance".toList]
  | confdbSchema => ["account-id".toList, "name".toList]
  | cluster => ["cluster-id".toList, "sequence".toList]
  | requestMessage => ["account-id".toList, "message-id".toList]
  | hardwareIdentity => ["issuer-id".toList, "hardware-id-key-sha3-384".toList]
  | deviceSessionRequest => ["brand-id".toList, "model".toList, "serial".toList]
  | serialRequest => []
  | accountKeyRequest => ["public-key-sha3-384".toList]
  | confdbControl => ["brand-id".toList, "model".toList, "serial".toList]
  | responseMessage => ["account-id".toList, "message-id".toList, "device".toList]

/-- `OptionalPrimaryKeyDefaults`, with `naming.DefaultProvenance`. -/
def optionalPrimaryKeyDefaults : AssertionType → List (List Char × List Char)
  | snapRevision | snapResourceRevision | snapResourcePair =>
    [("provenance".toList, "global-upload".toList)]
  | _ => []

/-- The `noAuthority` flag. -/
def noAuthority : AssertionType → Bool
  | deviceSessionRequest | serialRequest | accountKeyRequest | confdbControl | responseMessage =>
    true
  | _ => false

/-- `MaxSupportedFormat`, from `maxSupportedFormat`. -/
def maxSupportedFormat : AssertionType → Nat
  | snapDeclaration => 7
  | systemUser => 2
  | accountKey => 1
  | _ => 0

/-- The types whose assertions have a `Timestamp()`. -/
def timestamped : AssertionType → Bool
  | account | baseDeclaration | model | preseed | repair | serial | deviceSessionRequest
  | snapDeclaration | snapBuild | snapRevision | validation | snapResourceRevision
  | snapResourcePair | store | validationSet => true
  | _ => false

end AssertionType

/-- An assertion as the database reads it: its type, headers, revision and format, and
`Signature()`, the signed content with its signature. Times are seconds; a zero time is `none`.
The `timestamp` is read only for a timestamped type, and `since` and `until` only for an
account-key, where they bound the key's validity. -/
structure Assertion where
  assertType : AssertionType
  headers : List (List Char × List Char)
  revision : Int
  format : Nat
  content : List Char
  signature : List Char
  timestamp : Int
  since : Int
  «until» : Option Int
  deriving DecidableEq, Repr

namespace Assertion

/-- `HeaderString`: the header's value, empty when it is missing. -/
def headerString (a : Assertion) (name : List Char) : List Char := (a.headers.lookup name).getD []

theorem lookup_of_headerString_ne_nil {a : Assertion} {name : List Char}
    (h : a.headerString name ≠ []) : a.headers.lookup name = some (a.headerString name) := by
  unfold headerString at h ⊢
  cases hl : a.headers.lookup name with
  | none => simp [hl] at h
  | some v => rfl

/-- `Ref().PrimaryKey` -/
def primaryKey (a : Assertion) : List (List Char) := a.assertType.primaryKey.map a.headerString

def authorityID (a : Assertion) : List Char := a.headerString "authority-id".toList

def signKeyID (a : Assertion) : List Char := a.headerString "sign-key-sha3-384".toList

def supportedFormat (a : Assertion) : Bool := a.format ≤ a.assertType.maxSupportedFormat

def accountID (a : Assertion) : List Char := a.headerString "account-id".toList

/-- `AccountKey.PublicKeyID`: the id of the key of the body, which assembling an account-key
checks to be the `public-key-sha3-384` header. -/
def publicKeyID (a : Assertion) : List Char := a.headerString "public-key-sha3-384".toList

def name (a : Assertion) : List Char := a.headerString "name".toList

end Assertion

/-- `%v` of a list of strings. -/
def goStrings (l : List (List Char)) : String :=
  "[" ++ String.ofList ([' '].intercalate l) ++ "]"

/-- `RevisionError.Error` -/
def revisionError (used current : Int) : String :=
  if used < 0 ∨ current < 0 then "assertion revision is unknown"
  else if used = current then "revision " ++ toString used ++ " is already the current revision"
  else if used < current then
    "revision " ++ toString used ++ " is older than current revision " ++ toString current
  else "revision " ++ toString used ++ " is more recent than current revision " ++ toString current

/-- Errors of a lookup: `NotFoundError`, or another one. -/
inductive FindError where
  | notFound
  | other (msg : String)
  deriving DecidableEq, Repr

/-- The primary key `Get` looks under: `key`, completed with the defaults of the optional primary
key headers. -/
def AssertionType.internalKey (t : AssertionType) (key : List (List Char)) :
    Except String (List (List Char)) :=
  if key.length > t.primaryKey.length then
    .error ("internal error: Backstore.Get given a key longer than expected for " ++
      Naming.quoted t.name ++ ": " ++ goStrings key)
  else
    (t.primaryKey.drop key.length).foldlM (fun acc name =>
      let defl := (t.optionalPrimaryKeyDefaults.lookup name).getD []
      if defl = [] then
        .error ("internal error: Backstore.Get given a key missing mandatory elements for " ++
          Naming.quoted t.name ++ ": " ++ goStrings key)
      else .ok (acc ++ [defl])) key

theorem AssertionType.internalKey_full {t : AssertionType} {key : List (List Char)}
    (h : key.length = t.primaryKey.length) : t.internalKey key = .ok key := by
  simp [internalKey, h, pure, Except.pure]

/-- `memoryBackstore`: the assertions stored, each under its type, its primary key and its
format. `Put` is called with the assertion's own type, so the type is the assertion's. -/
structure MemoryBackstore where
  assertions : List Assertion
  deriving DecidableEq, Repr

namespace MemoryBackstore

/-- `NewMemoryBackstore` -/
def empty : MemoryBackstore := ⟨[]⟩

/-- An assertion stored under the type and key, in a format up to `maxFormat`. -/
def under (t : AssertionType) (key : List (List Char)) (maxFormat : Nat) (a : Assertion) : Bool :=
  a.assertType = t && a.primaryKey = key && a.format ≤ maxFormat

/-- One round of the loop of `memBSLeaf.cur`: a later revision takes the place of the one
found so far. -/
def pickLatest (best : Option Assertion) (a : Assertion) : Option Assertion :=
  match best with
  | none => some a
  | some b => if a.revision > b.revision then some a else some b

/-- `memBSLeaf.cur`: of the assertions under the key in a format up to `maxFormat`, the latest
revision. -/
def cur (bs : MemoryBackstore) (t : AssertionType) (key : List (List Char)) (maxFormat : Nat) :
    Option Assertion :=
  (bs.assertions.filter (under t key maxFormat)).foldl pickLatest none

def get (bs : MemoryBackstore) (t : AssertionType) (key : List (List Char)) (maxFormat : Nat) :
    Except FindError Assertion :=
  match t.internalKey key with
  | .error e => .error (.other e)
  | .ok key =>
    match bs.cur t key maxFormat with
    | some a => .ok a
    | none => .error .notFound

/-- Two assertions under the same type, primary key and format. -/
def sameSlot (a b : Assertion) : Bool :=
  b.assertType = a.assertType && b.primaryKey = a.primaryKey && b.format = a.format

/-- `leaf[key0][assert.Format()] = assert` -/
def replace (bs : MemoryBackstore) (a : Assertion) : MemoryBackstore :=
  ⟨a :: bs.assertions.filter fun b => !sameSlot a b⟩

/-- `Put`: refused unless the revision is above the current one of the key. -/
def put (bs : MemoryBackstore) (a : Assertion) : Except String MemoryBackstore :=
  match bs.cur a.assertType a.primaryKey a.assertType.maxSupportedFormat with
  | some cur =>
    if cur.revision ≥ a.revision then .error (revisionError a.revision cur.revision)
    else .ok (bs.replace a)
  | none => .ok (bs.replace a)

/-- Whether `hint` matches a key: an empty element of the hint matches anything. -/
def hintMatches (hint key : List (List Char)) : Bool :=
  (hint.zip key).all fun (h, k) => h = [] || h = k

/-- `searchMatch`: every expected header is there with the value. -/
def searchMatch (a : Assertion) (headers : List (List Char × List Char)) : Bool :=
  headers.all fun (name, value) => a.headers.lookup name = some value

/-- `Search`: the current assertion, up to `maxFormat`, of each key the headers' values of the
primary key match, when it has the headers. -/
def search (bs : MemoryBackstore) (t : AssertionType) (headers : List (List Char × List Char))
    (maxFormat : Nat) : List Assertion :=
  let hint := t.primaryKey.map fun name => (headers.lookup name).getD []
  let keys := ((bs.assertions.filter (·.assertType = t)).map (·.primaryKey)).dedup
  ((keys.filter (hintMatches hint)).filterMap fun key => bs.cur t key maxFormat).filter
    (searchMatch · headers)

variable {bs bs' : MemoryBackstore} {t : AssertionType} {key : List (List Char)} {m : Nat}
  {a b : Assertion} {headers : List (List Char × List Char)}

theorem foldl_pickLatest_mem :
    ∀ {l : List Assertion} {best : Option Assertion}, l.foldl pickLatest best = some a →
      best = some a ∨ a ∈ l
  | [], _, h => .inl h
  | c :: l, best, h => by
    rw [List.foldl_cons] at h
    rcases foldl_pickLatest_mem h with h | h
    · -- the round on `c` keeps the one so far or takes `c`
      unfold pickLatest at h
      split at h
      · cases h
        exact .inr List.mem_cons_self
      · split at h <;> cases h
        · exact .inr List.mem_cons_self
        · exact .inl rfl
    · exact .inr (List.mem_cons_of_mem _ h)

theorem foldl_pickLatest_isSome :
    ∀ {l : List Assertion} {best : Option Assertion}, (best.isSome ∨ l ≠ []) →
      (l.foldl pickLatest best).isSome
  | [], _, h => by simpa using h
  | c :: l, best, _ => by
    have hsome : (pickLatest best c).isSome := by
      unfold pickLatest
      split
      · rfl
      · split <;> rfl
    rw [List.foldl_cons]
    exact foldl_pickLatest_isSome (.inl hsome)

theorem cur_eq_some (h : bs.cur t key m = some a) :
    a ∈ bs.assertions ∧ a.assertType = t ∧ a.primaryKey = key ∧ a.format ≤ m := by
  rcases foldl_pickLatest_mem h with h | h
  · cases h
  · simpa [under, and_assoc] using List.mem_filter.mp h

theorem cur_isSome (hb : b ∈ bs.assertions) (ht : b.assertType = t) (hk : b.primaryKey = key)
    (hm : b.format ≤ m) : (bs.cur t key m).isSome := by
  have hne : bs.assertions.filter (under t key m) ≠ [] :=
    List.ne_nil_of_mem (List.mem_filter.mpr ⟨hb, by simp [under, ht, hk, hm]⟩)
  exact foldl_pickLatest_isSome (.inr hne)

theorem foldl_pickLatest_le :
    ∀ {l : List Assertion} {best : Option Assertion}, l.foldl pickLatest best = some a →
      (∀ b, best = some b → b.revision ≤ a.revision) ∧ ∀ b ∈ l, b.revision ≤ a.revision
  | [], _, h => by
    rw [List.foldl_nil] at h
    refine ⟨fun b hb => ?_, fun b hb => by simp at hb⟩
    rw [h] at hb
    cases hb
    exact le_refl _
  | x :: l, best, h => by
    rw [List.foldl_cons] at h
    obtain ⟨hstart, hrest⟩ := foldl_pickLatest_le h
    have hround : ∃ y, pickLatest best x = some y ∧ x.revision ≤ y.revision ∧
        ∀ b, best = some b → b.revision ≤ y.revision := by
      unfold pickLatest
      split
      · exact ⟨x, rfl, le_refl _, fun b hb => by cases hb⟩
      · next c =>
        split
        · next hgt => exact ⟨x, rfl, le_refl _, fun b hb => by cases hb; omega⟩
        · next hle => exact ⟨c, rfl, by omega, fun b hb => by cases hb; exact le_refl _⟩
    obtain ⟨y, hy, hxy, hby⟩ := hround
    have hya := hstart y hy
    refine ⟨fun b hb => (hby b hb).trans hya, fun b hb => ?_⟩
    rcases List.mem_cons.mp hb with rfl | hb
    · exact hxy.trans hya
    · exact hrest b hb

theorem foldl_pickLatest_of_le :
    ∀ {l : List Assertion}, (∀ b ∈ l, b.revision ≤ a.revision) → l.foldl pickLatest (some a) = some a
  | [], _ => rfl
  | x :: l, h => by
    have hx : ¬ x.revision > a.revision := not_lt.mpr (h x List.mem_cons_self)
    simp only [List.foldl_cons, pickLatest, hx, if_false]
    exact foldl_pickLatest_of_le fun b hb => h b (List.mem_cons_of_mem _ hb)

theorem le_of_cur (h : bs.cur t key m = some a) (hb : b ∈ bs.assertions)
    (hunder : under t key m b = true) : b.revision ≤ a.revision :=
  (foldl_pickLatest_le h).2 b (List.mem_filter.mpr ⟨hb, hunder⟩)

theorem get_of_cur (h : bs.cur t key m = some a) (hlen : key.length = t.primaryKey.length) :
    bs.get t key m = .ok a := by
  simp [get, AssertionType.internalKey_full hlen, h]

theorem get_eq_ok (h : bs.get t key m = .ok a) :
    a ∈ bs.assertions ∧ a.assertType = t ∧ t.internalKey key = .ok a.primaryKey ∧ a.format ≤ m := by
  unfold get at h
  split at h
  · cases h
  · next key' hkey =>
    split at h
    · next c hc =>
      cases h
      obtain ⟨hmem, ht, hk, hm⟩ := cur_eq_some hc
      exact ⟨hmem, ht, hk ▸ hkey, hm⟩
    · cases h

theorem get_ne_notFound (hb : b ∈ bs.assertions) (ht : b.assertType = t)
    (hk : b.primaryKey = key) (hlen : key.length = t.primaryKey.length) (hm : b.format ≤ m) :
    bs.get t key m ≠ .error .notFound := by
  obtain ⟨c, hc⟩ := Option.isSome_iff_exists.mp (cur_isSome hb ht hk hm)
  simp [get, AssertionType.internalKey_full hlen, hc]

theorem mem_replace : b ∈ (bs.replace a).assertions ↔ b = a ∨ b ∈ bs.assertions ∧ sameSlot a b = false := by
  simp [replace]

theorem put_eq_ok (h : bs.put a = .ok bs') : bs' = bs.replace a := by
  unfold put at h
  split at h
  · split at h
    · cases h
    · cases h
      rfl
  · cases h
    rfl

theorem revision_lt_of_put (h : bs.put a = .ok bs') (hb : b ∈ bs.assertions)
    (hunder : under a.assertType a.primaryKey a.assertType.maxSupportedFormat b = true) :
    b.revision < a.revision := by
  unfold put at h
  split at h
  · next c hc =>
    split at h
    · cases h
    · next hrev =>
      have hbc := le_of_cur hc hb hunder
      omega
  · next hnone =>
    simp only [under, Bool.and_eq_true, decide_eq_true_eq] at hunder
    have hsome := cur_isSome hb hunder.1.1 hunder.1.2 hunder.2
    rw [hnone] at hsome
    cases hsome

theorem put_cur (h : bs.put a = .ok bs') (hf : a.format ≤ a.assertType.maxSupportedFormat) :
    bs'.cur a.assertType a.primaryKey a.assertType.maxSupportedFormat = some a := by
  have ha : under a.assertType a.primaryKey a.assertType.maxSupportedFormat a = true := by
    simp [under, hf]
  rw [put_eq_ok h]
  simp only [cur, replace, List.filter_cons, ha, if_true, List.foldl_cons, pickLatest]
  apply foldl_pickLatest_of_le
  intro b hb
  obtain ⟨hb, hunder⟩ := List.mem_filter.mp hb
  exact le_of_lt (revision_lt_of_put h (List.mem_filter.mp hb).1 hunder)

theorem put_cur_le (h : bs.put a = .ok bs') (hf : a.format ≤ a.assertType.maxSupportedFormat)
    {c : Assertion} (hc : bs.cur t key t.maxSupportedFormat = some c) :
    ∃ c', bs'.cur t key t.maxSupportedFormat = some c' ∧ c.revision ≤ c'.revision := by
  obtain ⟨hmem, ht, hk, hm⟩ := cur_eq_some hc
  have hwitness : ∃ d ∈ bs'.assertions, d.assertType = t ∧ d.primaryKey = key ∧
      d.format ≤ t.maxSupportedFormat ∧ c.revision ≤ d.revision := by
    by_cases hs : sameSlot a c = true
    · simp only [sameSlot, Bool.and_eq_true, decide_eq_true_eq] at hs
      obtain ⟨⟨hst, hsk⟩, -⟩ := hs
      have hta : a.assertType = t := hst.symm.trans ht
      have hunder : under a.assertType a.primaryKey a.assertType.maxSupportedFormat c = true := by
        simp [under, hst, hsk, hta, hm]
      refine ⟨a, ?_, hta, hsk.symm.trans hk, by rw [← hta]; exact hf,
        le_of_lt (revision_lt_of_put h hmem hunder)⟩
      rw [put_eq_ok h]
      exact mem_replace.mpr (.inl rfl)
    · refine ⟨c, ?_, ht, hk, hm, le_refl _⟩
      rw [put_eq_ok h]
      exact mem_replace.mpr (.inr ⟨hmem, by simpa using hs⟩)
  obtain ⟨d, hd, hdt, hdk, hdm, hcd⟩ := hwitness
  obtain ⟨c', hc'⟩ := Option.isSome_iff_exists.mp (cur_isSome hd hdt hdk hdm)
  have hunder : under t key t.maxSupportedFormat d = true := by simp [under, hdt, hdk, hdm]
  exact ⟨c', hc', hcd.trans (le_of_cur hc' hd hunder)⟩

theorem mem_of_put (h : bs.put a = .ok bs') (hb : b ∈ bs'.assertions) :
    b = a ∨ b ∈ bs.assertions := by
  rw [put_eq_ok h, mem_replace] at hb
  exact hb.imp_right And.left

theorem put_keeps_slot (h : bs.put a = .ok bs') (hb : b ∈ bs.assertions) :
    ∃ c ∈ bs'.assertions, c.assertType = b.assertType ∧ c.primaryKey = b.primaryKey ∧
      c.format = b.format := by
  rw [put_eq_ok h]
  by_cases hs : sameSlot a b = true
  · simp only [sameSlot, Bool.and_eq_true, decide_eq_true_eq] at hs
    exact ⟨a, mem_replace.mpr (.inl rfl), hs.1.1.symm, hs.1.2.symm, hs.2.symm⟩
  · exact ⟨b, mem_replace.mpr (.inr ⟨hb, by simpa using hs⟩), rfl, rfl, rfl⟩

theorem mem_of_mem_search (h : a ∈ bs.search t headers m) : a ∈ bs.assertions := by
  simp only [search, List.mem_filter, List.mem_filterMap] at h
  obtain ⟨⟨key, -, hcur⟩, -⟩ := h
  exact (cur_eq_some hcur).1

/-- What putting the assertions of `l` can leave: assertions of `l` only, and something under
the type, primary key and format of each. -/
structure PutFrom (bs : MemoryBackstore) (l : List Assertion) : Prop where
  mem : ∀ a ∈ bs.assertions, a ∈ l
  slot : ∀ b ∈ l, ∃ c ∈ bs.assertions,
    c.assertType = b.assertType ∧ c.primaryKey = b.primaryKey ∧ c.format = b.format

theorem empty_putFrom : empty.PutFrom [] := ⟨fun _ h => by simp [empty] at h, fun _ h => by simp at h⟩

theorem PutFrom.put {l : List Assertion} (hbs : bs.PutFrom l) (h : bs.put a = .ok bs') :
    bs'.PutFrom (l ++ [a]) where
  mem b hb := by
    rcases mem_of_put h hb with rfl | hb
    · simp
    · exact List.mem_append_left _ (hbs.mem b hb)
  slot b hb := by
    rcases List.mem_append.mp hb with hb | hb
    · obtain ⟨c, hc, hslot⟩ := hbs.slot b hb
      obtain ⟨d, hd, ht, hk, hf⟩ := put_keeps_slot h hc
      exact ⟨d, hd, ht.trans hslot.1, hk.trans hslot.2.1, hf.trans hslot.2.2⟩
    · rw [List.mem_singleton.mp hb, put_eq_ok h]
      exact ⟨a, mem_replace.mpr (.inl rfl), rfl, rfl, rfl⟩

theorem PutFrom.get_ne_notFound {l : List Assertion} (hbs : bs.PutFrom l) (hb : b ∈ l)
    (hm : b.format ≤ m) : bs.get b.assertType b.primaryKey m ≠ .error .notFound := by
  obtain ⟨c, hc, hct, hck, hcf⟩ := hbs.slot b hb
  have hlen : b.primaryKey.length = b.assertType.primaryKey.length := by
    simp [Assertion.primaryKey]
  exact MemoryBackstore.get_ne_notFound hc hct hck hlen (hcf ▸ hm)

theorem PutFrom.foldlM {f : MemoryBackstore → Assertion → Except String MemoryBackstore}
    (hf : ∀ bs a bs', f bs a = .ok bs' → bs.put a = .ok bs') :
    ∀ {l l' : List Assertion} {bs bs' : MemoryBackstore}, bs.PutFrom l →
      l'.foldlM f bs = .ok bs' → bs'.PutFrom (l ++ l')
  | l, [], bs, bs', hbs, h => by
    cases h
    simpa using hbs
  | l, a :: rest, bs, bs', hbs, h => by
    rw [List.foldlM_cons] at h
    obtain ⟨bs₁, h₁, hrest⟩ := Run.bind_eq_ok.mp h
    have hput : bs₁.PutFrom (l ++ [a]) := hbs.put (hf _ _ _ h₁)
    simpa using PutFrom.foldlM hf hput hrest

end MemoryBackstore

end Snapd.Asserts
