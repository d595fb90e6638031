import Snapd.Asserts.Backstore
import Snapd.Lib.Run

/-! The assertion database of `asserts/database.go`: the trusted, predefined and writable
backstores, the search for the key that signed an assertion, the default checkers, `Check` and
`Add`. What the database takes from elsewhere is the parameter `Primitives`: the signature
scheme, the matching of an account key's signing constraints, the keys of the types without
authority and the consistency checks of the types other than account and account-key. -/

namespace Snapd.Asserts

open Naming (quoted)

/-- `DatabaseConfig`: the trusted assertions, the other predefined ones and the backstore. -/
structure DatabaseConfig where
  trusted : List Assertion
  otherPredefined : List Assertion
  backstore : MemoryBackstore
  deriving DecidableEq, Repr

/-- `Database`: the backstore it adds to, the trusted and predefined ones, the backstores of the
databases it was stacked on, and the earliest current time if one was set. -/
structure Database where
  bs : MemoryBackstore
  trusted : MemoryBackstore
  predefined : MemoryBackstore
  stackedOn : List MemoryBackstore
  earliestTime : Option Int
  deriving DecidableEq, Repr

/-- `Ref.String` -/
def refString (t : AssertionType) (pk : List (List Char)) : String :=
  let n := t.primaryKey.length
  let nopt := t.optionalPrimaryKeyDefaults.length
  let pkStr :=
    if pk.length > n ∨ pk.length < n - nopt then "???".toList
    else if n = 0 then "-".toList
    else
      let last := pk.getD (n - nopt - 1) []
      if n = 1 then last
      else
        let required := ((t.primaryKey.take (n - nopt - 1)).zip pk).map fun (k, v) => k ++ ':' :: v
        let optional := ((t.primaryKey.zip pk).drop (n - nopt)).filterMap fun (k, v) =>
          if v = (t.optionalPrimaryKeyDefaults.lookup k).getD [] then none else some (k ++ ':' :: v)
        [' '].intercalate ((last ++ [';']) :: required ++ optional)
  String.ofList t.name ++ " (" ++ String.ofList pkStr ++ ")"

/-- One trusted assertion put by `OpenDatabase`: only accounts and account keys. -/
def putTrusted (bs : MemoryBackstore) (a : Assertion) : Except String MemoryBackstore :=
  match a.assertType with
  | .accountKey => (bs.put a).mapError fun err =>
    "cannot predefine trusted account key " ++ quoted a.publicKeyID ++ " for " ++
      quoted a.accountID ++ ": " ++ err
  | .account => (bs.put a).mapError fun err =>
    "cannot predefine trusted account " ++ quoted (a.headerString "display-name".toList) ++ ": " ++
      err
  | t => .error ("cannot predefine trusted assertions that are not account-key or account: " ++
    String.ofList t.name)

/-- One other predefined assertion put by `OpenDatabase`. -/
def putPredefined (bs : MemoryBackstore) (a : Assertion) : Except String MemoryBackstore :=
  (bs.put a).mapError fun err =>
    "cannot predefine assertion " ++ refString a.assertType a.primaryKey ++ ": " ++ err

def openDatabase (cfg : DatabaseConfig) : Except String Database := do
  let trusted ← cfg.trusted.foldlM putTrusted MemoryBackstore.empty
  let predefined ← cfg.otherPredefined.foldlM putPredefined MemoryBackstore.empty
  pure ⟨cfg.backstore, trusted, predefined, [], none⟩

namespace Database

/-- `backstores`: trusted, predefined, the backstore added to, then those stacked on; the order
in which `Find` and `findAccountKey` look. -/
def backstores (db : Database) : List MemoryBackstore :=
  [db.trusted, db.predefined, db.bs] ++ db.stackedOn

/-- `WithStackedBackstore`: adds to `backstore`, finds in it after the trusted and predefined
ones and before this database's. The new database has no earliest time set. -/
def withStackedBackstore (db : Database) (backstore : MemoryBackstore) : Database :=
  ⟨backstore, db.trusted, db.predefined, db.bs :: db.stackedOn, none⟩

def setEarliestTime (db : Database) (earliest : Option Int) : Database :=
  { db with earliestTime := earliest }

end Database

/-- The loop over backstores of `find` and `findAccountKey`: the first that has the key; any
failure but not finding stops it. -/
def firstHit (t : AssertionType) (key : List (List Char)) (maxFormat : Nat) :
    List MemoryBackstore → Except FindError (Option Assertion)
  | [] => .ok none
  | bs :: rest =>
    match bs.get t key maxFormat with
    | .ok a => .ok (some a)
    | .error .notFound => firstHit t key maxFormat rest
    | .error e => .error e

/-- `PrimaryKeyFromHeaders`: the value of each primary key header, or its default. -/
def primaryKeyFromHeaders (t : AssertionType) (headers : List (List Char × List Char)) :
    Except String (List (List Char)) :=
  t.primaryKey.mapM fun k =>
    let keyVal := (headers.lookup k).getD []
    let keyVal := if keyVal = [] then (t.optionalPrimaryKeyDefaults.lookup k).getD [] else keyVal
    if keyVal = [] then .error ("must provide primary key: " ++ String.ofList k) else .ok keyVal

def AssertionType.acceptablePrimaryKey (t : AssertionType) (key : List (List Char)) : Bool :=
  !(key.length > t.primaryKey.length ∨
    key.length < t.primaryKey.length - t.optionalPrimaryKeyDefaults.length)

def headersFromPrimaryKey (t : AssertionType) (pk : List (List Char)) :
    Except String (List (List Char × List Char)) :=
  if !t.acceptablePrimaryKey pk then
    .error ("primary key has wrong length for " ++ quoted t.name ++ " assertion")
  else
    t.primaryKey.zipIdx.mapM fun (name, i) =>
      if i < pk.length then
        let keyVal := pk.getD i []
        if keyVal = [] then .error ("primary key " ++ quoted name ++ " header cannot be empty")
        else .ok (name, keyVal)
      else .ok (name, (t.optionalPrimaryKeyDefaults.lookup name).getD [])

/-- The format `find` looks up to: no format (`-1` in the source) is the latest supported one. -/
def AssertionType.findFormat (t : AssertionType) : Option Nat → Except FindError Nat
  | none => .ok t.maxSupportedFormat
  | some m =>
    if m > t.maxSupportedFormat then
      .error (.other ("cannot find " ++ quoted t.name ++ " assertions for format " ++ toString m ++
        " higher than supported format " ++ toString t.maxSupportedFormat))
    else .ok m

/-- `find`: the first backstore's assertion under the primary key of the headers, if it has the
other headers too. -/
def find (backstores : List MemoryBackstore) (t : AssertionType)
    (headers : List (List Char × List Char)) (maxFormat : Option Nat) :
    Except FindError Assertion := do
  let maxFormat ← t.findFormat maxFormat
  let keyValues ← (primaryKeyFromHeaders t headers).mapError .other
  let hit ← firstHit t keyValues maxFormat backstores
  match hit with
  | some a => if MemoryBackstore.searchMatch a headers then .ok a else .error .notFound
  | none => .error .notFound

/-- `findMany`: what each backstore's search finds, not found when nothing is. -/
def findMany (backstores : List MemoryBackstore) (t : AssertionType)
    (headers : List (List Char × List Char)) : Except FindError (List Assertion) :=
  let res := backstores.flatMap fun bs => bs.search t headers t.maxSupportedFormat
  if res = [] then .error .notFound else .ok res

namespace Database

def find (db : Database) (t : AssertionType) (headers : List (List Char × List Char)) :
    Except FindError Assertion :=
  Asserts.find db.backstores t headers none

def findMaxFormat (db : Database) (t : AssertionType) (headers : List (List Char × List Char))
    (maxFormat : Nat) : Except FindError Assertion :=
  Asserts.find db.backstores t headers (some maxFormat)

def findMany (db : Database) (t : AssertionType) (headers : List (List Char × List Char)) :
    Except FindError (List Assertion) :=
  Asserts.findMany db.backstores t headers

/-- `findAccountKey`: the account key with the key id, in the first backstore that has one; it
must be the authority's. -/
def findAccountKey (db : Database) (authorityID keyID : List Char) : Except FindError Assertion :=
  match firstHit .accountKey [keyID] AssertionType.accountKey.maxSupportedFormat db.backstores with
  | .ok (some hit) =>
    if hit.accountID ≠ authorityID then
      .error (.other ("found public key " ++ quoted keyID ++ " from " ++ quoted hit.accountID ++
        " but expected it from: " ++ String.ofList authorityID))
    else .ok hit
  | .ok none => .error .notFound
  | .error e => .error e

def isTrustedAccount (db : Database) (accountID : List Char) : Bool :=
  accountID ≠ [] && (db.trusted.get .account [accountID] AssertionType.account.maxSupportedFormat).isOk

/-- `Ref.Resolve` with `Find`. -/
def resolve (db : Database) (t : AssertionType) (pk : List (List Char)) :
    Except FindError Assertion :=
  match headersFromPrimaryKey t pk with
  | .error _ =>
    .error (.other (quoted t.name ++ " assertion reference primary key has the wrong length " ++
      "(expected " ++ goStrings t.primaryKey ++ "): " ++ goStrings pk))
  | .ok headers => db.find t headers

end Database

/-- What the database takes from the rest of the package: `decodeSignature`, the verification
of a signature by the public key of an id, `matchAgainstConstraints` of an account key on the
headers of an assertion, `signKey` of the types without authority, and `checkConsistency` of the
types other than account and account-key. -/
structure Primitives where
  decodeSignature : List Char → Except String (List Char)
  verify : List Char → List Char → List Char → Except String Unit
  matchAgainstConstraints : Assertion → Assertion → Bool
  signKey : Assertion → Database → Except String (List Char)
  checkConsistency : Assertion → Option Assertion → Database → Except String Unit

/-- A valid signature of the assertion's content by the key of the id. -/
def Primitives.signs (p : Primitives) (keyID : List Char) (a : Assertion) : Bool :=
  match p.decodeSignature a.signature with
  | .ok signature => (p.verify keyID a.content signature).isOk
  | .error _ => false

/-- `Checker`: run on an assertion, the account key that signed it if any, the database, and
the earliest and latest times that the current time can be (none: no latest). -/
abbrev Checker := Assertion → Option Assertion → Database → Int → Option Int → Except String Unit

def isValidAssumingCurTimeWithin (since : Int) («until» : Option Int) (earliest : Int)
    (latest : Option Int) : Bool :=
  (match latest with
    | some latest => !(latest < earliest) && !(latest < since)
    | none => true) &&
  (match «until» with
    | some u => !(earliest > u || earliest = u)
    | none => true)

def isValidAt (since : Int) («until» : Option Int) («when» : Int) : Bool :=
  (decide («when» > since) || «when» = since) &&
    (match «until» with
      | some u => decide («when» < u)
      | none => true)

/-- `timeMismatchMsg`, with times as seconds. -/
def timeMismatchMsg (earliest : Int) (latest : Option Int) (keySince : Int)
    (keyUntil : Option Int) : String :=
  let msg := match latest with
    | some latest =>
      if latest ≠ earliest then
        "current time range is [" ++ toString earliest ++ ", " ++ toString latest ++ "]"
      else "current time is " ++ toString earliest
    | none => "current time is " ++ toString earliest
  match keyUntil with
  | some u => msg ++ " but key is valid during [" ++ toString keySince ++ ", " ++ toString u ++ ")"
  | none => msg ++ " but key is valid from " ++ toString keySince

def checkSigningKeyIsNotExpired : Checker := fun a signingKey _ earliest latest =>
  match signingKey with
  | none => .ok ()
  | some k =>
    if !isValidAssumingCurTimeWithin k.since k.until earliest latest then
      .error ("assertion is signed with expired public key " ++ quoted a.signKeyID ++ " from " ++
        quoted a.authorityID ++ ": " ++ timeMismatchMsg earliest latest k.since k.until)
    else .ok ()

/-- The public key `CheckSignature` verifies with: the account key's, which must be the
authority's and allowed to sign the assertion, or the one of a type without authority. -/
def signingPublicKey (p : Primitives) (a : Assertion) (signingKey : Option Assertion)
    (db : Database) : Except String (List Char) :=
  match signingKey with
  | some k =>
    if a.authorityID ≠ k.accountID then
      .error ("assertion authority " ++ quoted a.authorityID ++ " does not match public key from " ++
        quoted k.accountID)
    else if !p.matchAgainstConstraints k a then
      .error ("assertion does not match signing constraints for public key " ++
        quoted a.signKeyID ++ " from " ++ quoted a.authorityID)
    else .ok k.publicKeyID
  | none => (p.signKey a db).mapError fun err =>
    "cannot check no-authority assertion type " ++ quoted a.assertType.name ++ ": " ++ err

def checkSignature (p : Primitives) : Checker := fun a signingKey db _ _ => do
  let pubKey ← signingPublicKey p a signingKey db
  let signature ← p.decodeSignature a.signature
  (p.verify pubKey a.content signature).mapError ("failed signature verification: " ++ ·)

def checkTimestampVsSigningKeyValidity : Checker := fun a signingKey _ _ _ =>
  match signingKey with
  | none => .ok ()
  | some k =>
    if a.assertType.timestamped && !isValidAt k.since k.until a.timestamp then
      let untilMsg := match k.until with
        | some u => " until " ++ quoted (toString u).toList
        | none => ""
      .error (String.ofList a.assertType.name ++ " assertion timestamp " ++
        quoted (toString a.timestamp).toList ++ " outside of signing key validity (key valid since " ++
        quoted (toString k.since).toList ++ untilMsg ++ ")")
    else .ok ()

/-- The types with a `checkConsistency`. -/
def AssertionType.consistencyChecker : AssertionType → Bool
  | .account | .accountKey | .accountKeyRequest | .baseDeclaration | .model | .repair | .serial
  | .snapDeclaration | .snapRevision | .validation | .snapDeveloper | .snapResourceRevision
  | .snapResourcePair | .store | .systemUser => true
  | _ => false

/-- `Account.checkConsistency` -/
def accountCheckConsistency (db : Database) (acc : Assertion) : Except String Unit :=
  if !db.isTrustedAccount acc.authorityID then
    .error ("account assertion for " ++ quoted acc.accountID ++
      " is not signed by a directly trusted authority: " ++ String.ofList acc.authorityID)
  else .ok ()

/-- `AccountKey.checkConsistency`: signed by a trusted authority, for an account that exists,
and no other key of the account under the same name. -/
def accountKeyCheckConsistency (db : Database) (ak : Assertion) : Except String Unit := do
  if !db.isTrustedAccount ak.authorityID then
    throw ("account-key assertion for " ++ quoted ak.accountID ++
      " is not signed by a directly trusted authority: " ++ String.ofList ak.authorityID)
  match db.find .account [("account-id".toList, ak.accountID)] with
  | .error .notFound =>
    throw ("account-key assertion for " ++ quoted ak.accountID ++
      " does not have a matching account assertion")
  | .error (.other e) => throw e
  | .ok _ => pure ()
  if ak.name ≠ [] then
    let assertions ← match db.findMany .accountKey
        [("account-id".toList, ak.accountID), ("name".toList, ak.name)] with
      | .ok assertions => pure assertions
      | .error .notFound => pure []
      | .error (.other e) => throw e
    match assertions.find? fun existing => ak.publicKeyID ≠ existing.publicKeyID with
    | some existing =>
      throw ("account-key assertion for " ++ quoted ak.accountID ++ " with ID " ++
        quoted ak.publicKeyID ++ " has the same name " ++ quoted ak.name ++ " as existing ID " ++
        quoted existing.publicKeyID)
    | none => pure ()

def checkCrossConsistency (p : Primitives) : Checker := fun a signingKey db _ _ =>
  match a.assertType with
  | .account => accountCheckConsistency db a
  | .accountKey => accountKeyCheckConsistency db a
  | t => if t.consistencyChecker then p.checkConsistency a signingKey db else .ok ()

def defaultCheckers (p : Primitives) : List Checker :=
  [checkSigningKeyIsNotExpired, checkSignature p, checkTimestampVsSigningKeyValidity,
    checkCrossConsistency p]

/-- The errors of `Check`: an unsupported format, which `Add` reports its own way, or another. -/
inductive CheckError where
  | unsupportedFormat
  | other (msg : String)
  deriving DecidableEq, Repr

/-- `UnsupportedFormatError.Error` -/
def unsupportedFormatError (t : AssertionType) (format : Nat) (update : Bool) : String :=
  "proposed " ++ quoted t.name ++ " assertion has format " ++ toString format ++ " but " ++
    toString t.maxSupportedFormat ++ " is latest supported" ++
    (if update then " (current not updated)" else "")

namespace Database

/-- The account key `Check` finds for an assertion with an authority; none for one without. -/
def checkKey (db : Database) (a : Assertion) : Except CheckError (Option Assertion) :=
  if !a.assertType.noAuthority then
    match db.findAccountKey a.authorityID a.signKeyID with
    | .ok k => .ok (some k)
    | .error .notFound =>
      .error (.other ("no matching public key " ++ quoted a.signKeyID ++ " for signature by " ++
        quoted a.authorityID))
    | .error (.other e) => .error (.other ("error finding matching public key for signature: " ++ e))
  else if a.authorityID ≠ [] then
    .error (.other ("internal error: " ++ quoted a.assertType.name ++
      " assertion cannot have authority-id set"))
  else .ok none

/-- `Check`, at the current time `now`: a supported format, the signing key found for an
assertion with an authority, then each checker. -/
def check (checkers : List Checker) (now : Int) (db : Database) (a : Assertion) :
    Except CheckError Unit :=
  if !a.supportedFormat then .error .unsupportedFormat
  else do
    let accKey ← db.checkKey a
    -- no earliest time set: the current time is `now`
    let earliest := db.earliestTime.getD now
    let latest := if db.earliestTime.isNone then some now else none
    (checkers.forM fun checker => checker a accKey db earliest latest).mapError .other

/-- The revision check of `Add` against the backstores a stacked database was built on. -/
def checkStacked (db : Database) (a : Assertion) : Except String Unit :=
  if db.stackedOn = [] then .ok ()
  else
    match headersFromPrimaryKey a.assertType a.primaryKey with
    | .error _ =>
      .error ("internal error: HeadersFromPrimaryKey for " ++ quoted a.assertType.name ++
        " failed on prechecked data: " ++ goStrings a.primaryKey)
    | .ok headers =>
      match Asserts.find db.stackedOn a.assertType headers none with
      | .ok cur =>
        if cur.revision ≥ a.revision then .error (revisionError a.revision cur.revision)
        else .ok ()
      | .error .notFound => .ok ()
      | .error (.other e) => .error e

/-- The part of `Add` after `Check`: no empty primary key value, no clash with a trusted or a
predefined assertion, a revision above those of the stacked-on backstores, then the put. -/
def putChecked (db : Database) (a : Assertion) : Except String Database :=
  match a.primaryKey.findIdx? (· = []) with
  | some i =>
    .error ("missing or non-string primary key header: " ++
      String.ofList (a.assertType.primaryKey.getD i []))
  | none =>
    match db.trusted.get a.assertType a.primaryKey a.assertType.maxSupportedFormat with
    | .error .notFound =>
      match db.predefined.get a.assertType a.primaryKey a.assertType.maxSupportedFormat with
      | .error .notFound => do
        db.checkStacked a
        let bs ← db.bs.put a
        pure { db with bs := bs }
      | _ => .error ("cannot add " ++ quoted a.assertType.name ++
        " assertion with primary key clashing with a predefined assertion: " ++
        goStrings a.primaryKey)
    | _ => .error ("cannot add " ++ quoted a.assertType.name ++
      " assertion with primary key clashing with a trusted assertion: " ++ goStrings a.primaryKey)

/-- `Add`, at the current time `now`. -/
def add (checkers : List Checker) (now : Int) (db : Database) (a : Assertion) :
    Except String Database :=
  if a.assertType.primaryKey = [] then
    .error ("internal error: assertion type " ++ quoted a.assertType.name ++ " has no primary key")
  else
    match db.check checkers now a with
    | .error .unsupportedFormat =>
      match db.resolve a.assertType a.primaryKey with
      | .error (.other e) => .error e
      | found => .error (unsupportedFormatError a.assertType a.format found.isOk)
    | .error (.other e) => .error e
    | .ok () => db.putChecked a

/-- `Add` called on each assertion in turn, each at its own current time: the database at the
end, and the assertions added. -/
def addRun (checkers : List Checker) (db : Database) (inputs : List (Int × Assertion)) :
    Database × List (Int × Assertion) :=
  Run.run (fun db input => db.add checkers input.1 input.2) db inputs

/-- An assertion in one of the backstores. -/
def Stored (db : Database) (a : Assertion) : Prop := ∃ bs ∈ db.backstores, a ∈ bs.assertions

/-- What `Find`, `FindMaxFormat` or `FindMany` can return. -/
def Findable (db : Database) (a : Assertion) : Prop :=
  (∃ t headers, db.find t headers = .ok a) ∨
  (∃ t headers maxFormat, db.findMaxFormat t headers maxFormat = .ok a) ∨
  (∃ t headers l, db.findMany t headers = .ok l ∧ a ∈ l)

end Database

section Spec

variable {bss : List MemoryBackstore} {t : AssertionType} {key : List (List Char)} {m : Nat}
  {headers : List (List Char × List Char)} {a : Assertion} {db db' : Database}

theorem firstHit_eq_ok_some (h : firstHit t key m bss = .ok (some a)) :
    ∃ bs ∈ bss, bs.get t key m = .ok a := by
  induction bss with
  | nil => cases h
  | cons bs rest ih =>
    unfold firstHit at h
    split at h
    · next a' hget =>
      cases h
      exact ⟨bs, List.mem_cons_self, hget⟩
    · obtain ⟨bs', hbs', hget⟩ := ih h
      exact ⟨bs', List.mem_cons_of_mem _ hbs', hget⟩
    · cases h

theorem mem_of_find_eq_ok {mf : Option Nat} (h : find bss t headers mf = .ok a) :
    ∃ bs ∈ bss, a ∈ bs.assertions := by
  unfold find at h
  obtain ⟨m', -, h⟩ := Run.bind_eq_ok.mp h
  obtain ⟨keyValues, -, h⟩ := Run.bind_eq_ok.mp h
  obtain ⟨hit, hhit, h⟩ := Run.bind_eq_ok.mp h
  -- only a hit that has the headers is returned
  cases hit with
  | none => cases h
  | some a' =>
    have ha : a' = a := by
      simp only at h
      split at h
      · cases h
        rfl
      · cases h
    obtain ⟨bs, hbs, hget⟩ := firstHit_eq_ok_some hhit
    exact ⟨bs, hbs, ha ▸ (MemoryBackstore.get_eq_ok hget).1⟩

theorem mem_of_findMany_eq_ok {l : List Assertion} (h : findMany bss t headers = .ok l)
    (ha : a ∈ l) : ∃ bs ∈ bss, a ∈ bs.assertions := by
  dsimp only [findMany] at h
  split at h
  · cases h
  · cases h
    obtain ⟨bs, hbs, hsearch⟩ := List.mem_flatMap.mp ha
    exact ⟨bs, hbs, MemoryBackstore.mem_of_mem_search hsearch⟩

theorem Database.stored_of_findable (h : db.Findable a) : db.Stored a := by
  rcases h with ⟨t, headers, h⟩ | ⟨t, headers, m, h⟩ | ⟨t, headers, l, h, ha⟩
  · exact mem_of_find_eq_ok h
  · exact mem_of_find_eq_ok h
  · exact mem_of_findMany_eq_ok h ha

/-- The key found for a signature is a stored account key, with the key id and of the
authority. -/
theorem Database.findAccountKey_eq_ok {authorityID keyID : List Char} {k : Assertion}
    (h : db.findAccountKey authorityID keyID = .ok k) :
    db.Stored k ∧ k.assertType = .accountKey ∧ k.publicKeyID = keyID ∧
      k.accountID = authorityID := by
  unfold findAccountKey at h
  split at h
  · next hit hhit =>
    split at h
    · cases h
    · next hacc =>
      cases h
      obtain ⟨bs, hbs, hget⟩ := firstHit_eq_ok_some hhit
      obtain ⟨hmem, htype, hkey, -⟩ := MemoryBackstore.get_eq_ok hget
      -- the key id is the whole primary key of an account key
      have hfull : AssertionType.accountKey.internalKey [keyID] = .ok [keyID] :=
        AssertionType.internalKey_full rfl
      have hpk : [keyID] = k.primaryKey := by
        rw [hfull] at hkey
        exact Except.ok.inj hkey
      have hid : k.publicKeyID = keyID := by
        simpa [Assertion.primaryKey, htype, AssertionType.primaryKey, Assertion.publicKeyID]
          using hpk.symm
      exact ⟨⟨bs, hbs, hmem⟩, htype, hid, not_not.mp hacc⟩
  · cases h
  · cases h

theorem checkSignature_eq_ok {p : Primitives} {k : Assertion} {earliest : Int}
    {latest : Option Int} (h : checkSignature p a (some k) db earliest latest = .ok ()) :
    a.authorityID = k.accountID ∧ p.matchAgainstConstraints k a = true ∧
      p.signs k.publicKeyID a = true := by
  obtain ⟨pubKey, hkey, h⟩ := Run.bind_eq_ok.mp h
  obtain ⟨signature, hsig, hverify⟩ := Run.bind_eq_ok.mp h
  simp only [signingPublicKey] at hkey
  split at hkey
  · cases hkey
  · next hauth =>
    split at hkey
    · cases hkey
    · next hmatch =>
      cases hkey
      refine ⟨not_not.mp hauth, by simpa using hmatch, ?_⟩
      simp [Primitives.signs, hsig, Run.mapError_eq_ok.mp hverify, Except.isOk, Except.toBool]

theorem Database.checkKey_eq_ok {accKey : Option Assertion} (h : db.checkKey a = .ok accKey)
    (hauth : a.assertType.noAuthority = false) :
    ∃ k, accKey = some k ∧ db.findAccountKey a.authorityID a.signKeyID = .ok k := by
  simp only [checkKey, hauth, Bool.not_false, if_true] at h
  split at h
  · next k hk =>
    cases h
    exact ⟨k, rfl, hk⟩
  · cases h
  · cases h

/-- What `Check` with the default checkers establishes of an assertion with an authority: the
key found for it is the authority's, may sign it and verifies its signature. -/
theorem Database.check_eq_ok {p : Primitives} {now : Int}
    (h : db.check (defaultCheckers p) now a = .ok ()) (hauth : a.assertType.noAuthority = false) :
    ∃ k, db.findAccountKey a.authorityID a.signKeyID = .ok k ∧ k.accountID = a.authorityID ∧
      p.matchAgainstConstraints k a = true ∧ p.signs k.publicKeyID a = true := by
  unfold check at h
  split at h
  · cases h
  · obtain ⟨accKey, hkey, h⟩ := Run.bind_eq_ok.mp h
    obtain ⟨k, rfl, hk⟩ := db.checkKey_eq_ok hkey hauth
    have hcheckers := Run.forM_eq_ok (Run.mapError_eq_ok.mp h)
    obtain ⟨hacc, hmatch, hsigns⟩ :=
      checkSignature_eq_ok (hcheckers (checkSignature p) (by simp [defaultCheckers]))
    exact ⟨k, hk, hacc.symm, hmatch, hsigns⟩

/-- A put that `Add` makes after `Check`: no empty primary key value, no trusted or predefined
assertion under the key, and the assertion put in the backstore added to. -/
theorem Database.putChecked_eq_ok (h : db.putChecked a = .ok db') :
    (∀ v ∈ a.primaryKey, v ≠ []) ∧
    db.trusted.get a.assertType a.primaryKey a.assertType.maxSupportedFormat = .error .notFound ∧
    db.predefined.get a.assertType a.primaryKey a.assertType.maxSupportedFormat =
      .error .notFound ∧
    ∃ bs, db.bs.put a = .ok bs ∧ db' = { db with bs := bs } := by
  unfold putChecked at h
  split at h
  · cases h
  · next hidx =>
    have hne : ∀ v ∈ a.primaryKey, v ≠ [] := by
      intro v hv
      simpa using List.findIdx?_eq_none_iff.mp hidx v hv
    split at h
    · next htrusted =>
      split at h
      · next hpredefined =>
        obtain ⟨-, -, h⟩ := Run.bind_eq_ok.mp h
        obtain ⟨bs, hput, h⟩ := Run.bind_eq_ok.mp h
        cases h
        exact ⟨hne, htrusted, hpredefined, bs, hput, rfl⟩
      · cases h
    · cases h

theorem Database.supportedFormat_of_check {checkers : List Checker} {now : Int}
    (h : db.check checkers now a = .ok ()) : a.supportedFormat = true := by
  unfold check at h
  split at h
  · cases h
  · next hformat => simpa using hformat

theorem Database.add_eq_ok {checkers : List Checker} {now : Int}
    (h : db.add checkers now a = .ok db') :
    db.check checkers now a = .ok () ∧ db.putChecked a = .ok db' := by
  unfold add at h
  split at h
  · cases h
  · split at h
    · split at h <;> cases h
    · cases h
    · next hcheck => exact ⟨hcheck, h⟩

/-- `OpenDatabase` adds to the configured backstore, stacked on nothing, and its trusted and
predefined backstores are what putting the configured assertions left. -/
theorem openDatabase_eq_ok {cfg : DatabaseConfig} (h : openDatabase cfg = .ok db) :
    db.bs = cfg.backstore ∧ db.stackedOn = [] ∧ db.trusted.PutFrom cfg.trusted ∧
      db.predefined.PutFrom cfg.otherPredefined := by
  obtain ⟨trusted, htrusted, h⟩ := Run.bind_eq_ok.mp h
  obtain ⟨predefined, hpredefined, h⟩ := Run.bind_eq_ok.mp h
  cases h
  -- a trusted account or account key is put, anything else refused
  have hputTrusted : ∀ bs a bs', putTrusted bs a = .ok bs' → bs.put a = .ok bs' := by
    intro bs a bs' hput
    unfold putTrusted at hput
    split at hput
    · exact Run.mapError_eq_ok.mp hput
    · exact Run.mapError_eq_ok.mp hput
    · cases hput
  have hputPredefined : ∀ bs a bs', putPredefined bs a = .ok bs' → bs.put a = .ok bs' :=
    fun _ _ _ hput => Run.mapError_eq_ok.mp hput
  have htrusted' := MemoryBackstore.PutFrom.foldlM hputTrusted MemoryBackstore.empty_putFrom htrusted
  have hpredefined' :=
    MemoryBackstore.PutFrom.foldlM hputPredefined MemoryBackstore.empty_putFrom hpredefined
  exact ⟨rfl, rfl, by simpa using htrusted', by simpa using hpredefined'⟩

theorem primaryKeyFromHeaders_graph {f : List Char → List Char}
    (hne : ∀ k ∈ t.primaryKey, f k ≠ []) :
    primaryKeyFromHeaders t (t.primaryKey.map fun k => (k, f k)) = .ok (t.primaryKey.map f) := by
  unfold primaryKeyFromHeaders
  apply Run.mapM_eq_ok
  intro k hk
  simp [List.lookup_graph f hk, hne k hk]

/-- `Find` with the primary key headers of an assertion that no trusted or predefined assertion
shadows returns the current one of the backstore added to. -/
theorem Database.find_of_cur {c : Assertion}
    (hne : ∀ v ∈ a.primaryKey, v ≠ [])
    (htrusted : db.trusted.get a.assertType a.primaryKey a.assertType.maxSupportedFormat =
      .error .notFound)
    (hpredefined : db.predefined.get a.assertType a.primaryKey a.assertType.maxSupportedFormat =
      .error .notFound)
    (hcur : db.bs.cur a.assertType a.primaryKey a.assertType.maxSupportedFormat = some c) :
    db.find a.assertType (a.assertType.primaryKey.map fun k => (k, a.headerString k)) = .ok c := by
  obtain ⟨-, hct, hck, -⟩ := MemoryBackstore.cur_eq_some hcur
  have hkey : ∀ k ∈ a.assertType.primaryKey, a.headerString k ≠ [] :=
    fun k hk => hne _ (List.mem_map_of_mem hk)
  have hlen : a.primaryKey.length = a.assertType.primaryKey.length := by
    simp [Assertion.primaryKey]
  have hhit : firstHit a.assertType a.primaryKey a.assertType.maxSupportedFormat db.backstores =
      .ok (some c) := by
    simp [backstores, firstHit, htrusted, hpredefined, MemoryBackstore.get_of_cur hcur hlen]
  have hheader : ∀ k ∈ a.assertType.primaryKey, c.headerString k = a.headerString k := by
    intro k hk
    have hmap : a.assertType.primaryKey.map c.headerString =
        a.assertType.primaryKey.map a.headerString := by
      simpa [Assertion.primaryKey, hct] using hck
    exact List.map_inj_left.mp hmap k hk
  have hmatch : MemoryBackstore.searchMatch c
      (a.assertType.primaryKey.map fun k => (k, a.headerString k)) = true := by
    simp only [MemoryBackstore.searchMatch, List.all_map, List.all_eq_true]
    intro k hk
    have hc := Assertion.lookup_of_headerString_ne_nil (hheader k hk ▸ hkey k hk)
    simp [Function.comp, hc, hheader k hk]
  have hhit' : firstHit a.assertType (a.assertType.primaryKey.map a.headerString)
      a.assertType.maxSupportedFormat db.backstores = .ok (some c) := hhit
  simp [find, Asserts.find, AssertionType.findFormat, primaryKeyFromHeaders_graph hkey,
    Except.mapError, bind, Except.bind, hhit', hmatch]

end Spec

end Snapd.Asserts
