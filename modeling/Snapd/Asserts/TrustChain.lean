import Snapd.Asserts.Database
import Mathlib.Logic.Relation

/-! Where the trust in a stored assertion comes from. An assertion with an authority is signed
by an account key of the authority, which is signed by an account key of its own authority, and
so on until a trusted or predefined assertion. Every key of such a chain was stored when the
assertion it signs was added, but it need not be stored any more: a later revision of an account
key takes its place in the backstore, and may name another account. -/

namespace Snapd.Asserts

section Chain

variable (p : Primitives)

/-- `k` is an account key among `avail` that signed `a`: a key of `a`'s authority, with the key
id `a` names, allowed to sign `a`, and with a valid signature of it. -/
def SignedBy (avail : List Assertion) (a k : Assertion) : Prop :=
  k ∈ avail ∧ k.assertType = .accountKey ∧ k.accountID = a.authorityID ∧
    k.publicKeyID = a.signKeyID ∧ p.matchAgainstConstraints k a = true ∧
    p.signs k.publicKeyID a = true

/-- A chain `a = a₀, k₁, …, kₙ` of keys among the predefined assertions `base` and `avail`, each
signing the one before it, that ends in `base`. -/
def Vouched (base avail : List Assertion) (a : Assertion) : Prop :=
  ∃ r ∈ base, Relation.ReflTransGen (SignedBy p (base ++ avail)) a r

variable {p} {base avail avail' : List Assertion} {a k : Assertion}

theorem Vouched.of_base (h : a ∈ base) : Vouched p base avail a := ⟨a, h, .refl⟩

theorem Vouched.signed (hk : SignedBy p (base ++ avail) a k) (hv : Vouched p base avail k) :
    Vouched p base avail a := by
  obtain ⟨r, hr, hchain⟩ := hv
  exact ⟨r, hr, .head hk hchain⟩

theorem Vouched.mono (hv : Vouched p base avail a) (hsub : avail ⊆ avail') :
    Vouched p base avail' a := by
  obtain ⟨r, hr, hchain⟩ := hv
  have hle : SignedBy p (base ++ avail) ≤ SignedBy p (base ++ avail') := by
    rintro x y ⟨hy, hrest⟩
    exact ⟨List.mem_append.mpr ((List.mem_append.mp hy).imp id (hsub ·)), hrest⟩
  exact ⟨r, hr, Relation.ReflTransGen.mono hle _ _ hchain⟩

end Chain

/-- The trusted and the other predefined assertions of a configuration. -/
def DatabaseConfig.predefinedAssertions (cfg : DatabaseConfig) : List Assertion :=
  cfg.trusted ++ cfg.otherPredefined

section Run

variable (p : Primitives) (cfg : DatabaseConfig) (db₀ : Database)

/-- What a run of `Add` from the database `db₀` opened with `cfg` keeps, with the history `H`
of the assertions added: the trusted and predefined backstores are `db₀`'s, the backstore added
to holds assertions of the history, each assertion of the history with an authority was vouched
for by the predefined assertions and those added before it, and none has the type and primary
key of a predefined one. -/
structure TrustInv (db : Database) (H : List (Int × Assertion)) : Prop where
  trusted : db.trusted = db₀.trusted
  predefined : db.predefined = db₀.predefined
  stackedOn : db.stackedOn = []
  added : ∀ a ∈ db.bs.assertions, a ∈ H.map Prod.snd
  vouched : Run.Each (fun pre (input : Int × Assertion) => input.2.assertType.noAuthority = false →
    Vouched p cfg.predefinedAssertions (pre.map Prod.snd) input.2) H
  noClash : ∀ a ∈ H.map Prod.snd, ∀ b ∈ cfg.predefinedAssertions,
    b.assertType = a.assertType → b.primaryKey ≠ a.primaryKey

variable {p cfg db₀}

theorem TrustInv.stored (hopen : openDatabase cfg = .ok db₀) {db : Database}
    {H : List (Int × Assertion)} (hinv : TrustInv p cfg db₀ db H) {a : Assertion}
    (ha : db.Stored a) : a ∈ cfg.predefinedAssertions ∨ a ∈ H.map Prod.snd := by
  obtain ⟨-, -, htrusted, hpredefined⟩ := openDatabase_eq_ok hopen
  obtain ⟨bs, hbs, hmem⟩ := ha
  simp only [Database.backstores, hinv.stackedOn, List.append_nil, List.mem_cons,
    List.not_mem_nil, or_false] at hbs
  rcases hbs with rfl | rfl | rfl
  · rw [hinv.trusted] at hmem
    exact .inl (List.mem_append_left _ (htrusted.mem a hmem))
  · rw [hinv.predefined] at hmem
    exact .inl (List.mem_append_right _ (hpredefined.mem a hmem))
  · exact .inr (hinv.added a hmem)

theorem TrustInv.not_clash (hopen : openDatabase cfg = .ok db₀)
    (hformat : cfg.predefinedAssertions.all Assertion.supportedFormat = true) {db : Database}
    {H : List (Int × Assertion)} (hinv : TrustInv p cfg db₀ db H) {a b : Assertion}
    (htrusted : db.trusted.get a.assertType a.primaryKey a.assertType.maxSupportedFormat =
      .error .notFound)
    (hpredefined : db.predefined.get a.assertType a.primaryKey a.assertType.maxSupportedFormat =
      .error .notFound)
    (hb : b ∈ cfg.predefinedAssertions) (htype : b.assertType = a.assertType) :
    b.primaryKey ≠ a.primaryKey := by
  obtain ⟨-, -, hputTrusted, hputPredefined⟩ := openDatabase_eq_ok hopen
  intro hkey
  have hsupported : b.format ≤ b.assertType.maxSupportedFormat := by
    simpa [Assertion.supportedFormat] using List.all_eq_true.mp hformat b hb
  rw [← htype, ← hkey] at htrusted hpredefined
  rcases List.mem_append.mp hb with hb | hb
  · rw [hinv.trusted] at htrusted
    exact hputTrusted.get_ne_notFound hb hsupported htrusted
  · rw [hinv.predefined] at hpredefined
    exact hputPredefined.get_ne_notFound hb hsupported hpredefined

theorem TrustInv.vouched_key (hopen : openDatabase cfg = .ok db₀) {db : Database}
    {H : List (Int × Assertion)} (hinv : TrustInv p cfg db₀ db H) {k : Assertion}
    (hk : db.Stored k) (htype : k.assertType = .accountKey) :
    Vouched p cfg.predefinedAssertions (H.map Prod.snd) k := by
  rcases hinv.stored hopen hk with hbase | hadded
  · exact .of_base hbase
  · obtain ⟨⟨now, k'⟩, hin, rfl⟩ := List.mem_map.mp hadded
    obtain ⟨pre, post, rfl⟩ := List.append_of_mem hin
    have hauth : k'.assertType.noAuthority = false := by
      rw [show k'.assertType = .accountKey from htype]
      rfl
    exact (hinv.vouched pre (now, k') post rfl hauth).mono (by simp)

theorem TrustInv.add (hopen : openDatabase cfg = .ok db₀)
    (hformat : cfg.predefinedAssertions.all Assertion.supportedFormat = true) {db db' : Database}
    {H : List (Int × Assertion)} (hinv : TrustInv p cfg db₀ db H) {now : Int} {a : Assertion}
    (h : db.add (defaultCheckers p) now a = .ok db') : TrustInv p cfg db₀ db' (H ++ [(now, a)]) := by
  obtain ⟨hcheck, hput⟩ := Database.add_eq_ok h
  obtain ⟨-, htrusted, hpredefined, bs, hbs, rfl⟩ := Database.putChecked_eq_ok hput
  refine ⟨hinv.trusted, hinv.predefined, hinv.stackedOn, ?added, ?vouched, ?noClash⟩
  case added =>
    intro b hb
    rcases MemoryBackstore.mem_of_put hbs hb with rfl | hb
    · simp
    · simpa using Or.inl (hinv.added b hb)
  case vouched =>
    refine Run.each_append_singleton _ |>.mpr ⟨hinv.vouched, fun hauth => ?_⟩
    obtain ⟨k, hfind, hacc, hmatch, hsigns⟩ := db.check_eq_ok hcheck hauth
    obtain ⟨hstored, htype, hid, -⟩ := Database.findAccountKey_eq_ok hfind
    have hkv := hinv.vouched_key hopen hstored htype
    have hk : k ∈ cfg.predefinedAssertions ++ H.map Prod.snd := by
      rcases hinv.stored hopen hstored with hbase | hadded
      · exact List.mem_append_left _ hbase
      · exact List.mem_append_right _ hadded
    exact hkv.signed ⟨hk, htype, hacc, hid, hmatch, hsigns⟩
  case noClash =>
    intro b hb c hc htype
    rcases List.mem_append.mp (by simpa using hb : b ∈ H.map Prod.snd ++ [a]) with hb | hb
    · exact hinv.noClash b hb c hc htype
    · rw [List.mem_singleton.mp hb]
      exact hinv.not_clash hopen hformat htrusted hpredefined hc (List.mem_singleton.mp hb ▸ htype)

theorem TrustInv.open (hopen : openDatabase cfg = .ok db₀)
    (hempty : cfg.backstore = MemoryBackstore.empty) : TrustInv p cfg db₀ db₀ [] := by
  obtain ⟨hbs, hstacked, -, -⟩ := openDatabase_eq_ok hopen
  refine ⟨rfl, rfl, hstacked, ?_, Run.each_nil _, by simp⟩
  intro a ha
  simp [hbs, hempty, MemoryBackstore.empty] at ha

end Run

/-- After any run of `Add` on a database opened with an empty backstore and predefined
assertions in supported formats, an assertion with an authority that `Find`, `FindMaxFormat`
or `FindMany` returns is predefined, or was added, and then had a chain of account keys to a
predefined assertion through keys predefined or added before it. No assertion added has the
type and primary key of a predefined one. -/
theorem add_run_vouches_findable (p : Primitives) (cfg : DatabaseConfig) (db : Database)
    (hopen : openDatabase cfg = .ok db) (hempty : cfg.backstore = MemoryBackstore.empty)
    (hformat : cfg.predefinedAssertions.all Assertion.supportedFormat = true)
    (inputs : List (Int × Assertion)) :
    (∀ a, (db.addRun (defaultCheckers p) inputs).1.Findable a → a.assertType.noAuthority = false →
      a ∈ cfg.predefinedAssertions ∨
      ∃ pre now post, (db.addRun (defaultCheckers p) inputs).2 = pre ++ (now, a) :: post ∧
        Vouched p cfg.predefinedAssertions (pre.map Prod.snd) a) ∧
    ∀ input ∈ (db.addRun (defaultCheckers p) inputs).2, ∀ b ∈ cfg.predefinedAssertions,
      b.assertType = input.2.assertType → b.primaryKey ≠ input.2.primaryKey := by
  have hinv : TrustInv p cfg db (db.addRun (defaultCheckers p) inputs).1
      (db.addRun (defaultCheckers p) inputs).2 :=
    Run.run_invariant _ (TrustInv p cfg db) (TrustInv.open hopen hempty)
      (fun _ _ _ _ hinv h => hinv.add hopen hformat h) inputs
  refine ⟨fun a hfind hauth => ?_, fun input hin b hb htype =>
    hinv.noClash input.2 (List.mem_map_of_mem hin) b hb htype⟩
  rcases hinv.stored hopen (Database.stored_of_findable hfind) with hbase | hadded
  · exact .inl hbase
  · obtain ⟨⟨now, a'⟩, hin, rfl⟩ := List.mem_map.mp hadded
    obtain ⟨pre, post, hsplit⟩ := List.append_of_mem hin
    exact .inr ⟨pre, now, post, hsplit, hinv.vouched pre _ post hsplit hauth⟩

/-- A signature scheme for concrete runs: the signature of a content by a key is the key id
followed by the content. Keys have no signing constraints. -/
def prefixPrimitives : Primitives where
  decodeSignature signature := .ok signature
  verify keyID content signature :=
    if signature = keyID ++ content then .ok () else .error "signature mismatch"
  matchAgainstConstraints _ _ := true
  signKey _ _ := .error "no custom signer"
  checkConsistency _ _ _ := .ok ()

/-- An assertion in format 0 with the headers, signed by the key `signer` in the prefix scheme,
timestamped at 0, and valid from 0 if it is a key. -/
def signedAssertion (t : AssertionType) (headers : List (List Char × List Char)) (revision : Int)
    (signer : List Char) : Assertion :=
  let content := headers.flatMap fun (k, v) => k ++ v
  ⟨t, headers, revision, 0, content, signer ++ content, 0, 0, none⟩

/-- The trusted account `root`, signed by its key `R`. -/
def rootAccount : Assertion :=
  signedAssertion .account [("authority-id".toList, "root".toList),
    ("sign-key-sha3-384".toList, ['R']), ("account-id".toList, "root".toList)] 0 ['R']

/-- The trusted key `R` of `root`. -/
def rootKey : Assertion :=
  signedAssertion .accountKey [("authority-id".toList, "root".toList),
    ("sign-key-sha3-384".toList, ['R']), ("account-id".toList, "root".toList),
    ("public-key-sha3-384".toList, ['R'])] 0 ['R']

/-- An account vouched for by `root`. -/
def rootSignedAccount (accountID : List Char) : Assertion :=
  signedAssertion .account [("authority-id".toList, "root".toList),
    ("sign-key-sha3-384".toList, ['R']), ("account-id".toList, accountID)] 0 ['R']

/-- Revision `revision` of the account key `K`, of the account `accountID`, signed by `root`. -/
def keyK (accountID : List Char) (revision : Int) : Assertion :=
  signedAssertion .accountKey [("authority-id".toList, "root".toList),
    ("sign-key-sha3-384".toList, ['R']), ("account-id".toList, accountID),
    ("public-key-sha3-384".toList, ['K'])] revision ['R']

/-- A snap-build of the account `a`, signed by `K`. -/
def buildOfA : Assertion :=
  signedAssertion .snapBuild [("authority-id".toList, ['a']), ("sign-key-sha3-384".toList, ['K']),
    ("snap-sha3-384".toList, ['s'])] 0 ['K']

/-- A database trusting `root` and its key. -/
def rootConfig : DatabaseConfig := ⟨[rootAccount, rootKey], [], MemoryBackstore.empty⟩

/-- What `OpenDatabase` makes of `rootConfig`. -/
def rootDatabase : Database :=
  ⟨MemoryBackstore.empty, ⟨[rootKey, rootAccount]⟩, MemoryBackstore.empty, [], none⟩

/-- The accounts `a` and `b`, the key `K` of `a`, a build `a` signs with `K`, then a second
revision of `K`, now of `b`, all at time 1. -/
def keyHandoverInputs : List (Int × Assertion) :=
  [(1, rootSignedAccount ['a']), (1, rootSignedAccount ['b']), (1, keyK ['a'] 0), (1, buildOfA),
    (1, keyK ['b'] 1)]

/-- The run of `Add` on `keyHandoverInputs`. -/
def keyHandoverRun : Database × List (Int × Assertion) :=
  rootDatabase.addRun (defaultCheckers prefixPrimitives) keyHandoverInputs

/-- Every `Add` of the run succeeds, and `Find` returns the build signed with `K` by `a`; but
no stored account key is `a`'s key `K`, since the second revision of `K` replaced the first. -/
theorem replaced_key_unchains_found_assertion :
    openDatabase rootConfig = .ok rootDatabase ∧ keyHandoverRun.2 = keyHandoverInputs ∧
    keyHandoverRun.1.find .snapBuild [("snap-sha3-384".toList, ['s'])] = .ok buildOfA ∧
    buildOfA ∉ rootConfig.predefinedAssertions ∧
    ¬ ∃ k, keyHandoverRun.1.Stored k ∧ k.assertType = .accountKey ∧
      k.accountID = buildOfA.authorityID ∧ k.publicKeyID = buildOfA.signKeyID := by
  refine ⟨by decide, by decide, by decide, by decide, ?_⟩
  rintro ⟨k, ⟨bs, hbs, hk⟩, htype, hacc, hid⟩
  have hnone : (keyHandoverRun.1.backstores.all fun bs => bs.assertions.all fun k =>
      !(k.assertType = .accountKey && k.accountID = buildOfA.authorityID &&
        k.publicKeyID = buildOfA.signKeyID)) = true := by decide
  have hkey := List.all_eq_true.mp (List.all_eq_true.mp hnone bs hbs) k hk
  simp [htype, hacc, hid] at hkey

/-- The run of `replaced_key_unchains_found_assertion` meets `add_run_vouches_findable`. -/
theorem add_run_vouches_findable_on_key_handover :
    openDatabase rootConfig = .ok rootDatabase ∧ rootConfig.backstore = MemoryBackstore.empty ∧
    rootConfig.predefinedAssertions.all Assertion.supportedFormat = true ∧
    ((∀ a, keyHandoverRun.1.Findable a → a.assertType.noAuthority = false →
      a ∈ rootConfig.predefinedAssertions ∨
      ∃ pre now post, keyHandoverRun.2 = pre ++ (now, a) :: post ∧
        Vouched prefixPrimitives rootConfig.predefinedAssertions (pre.map Prod.snd) a) ∧
    ∀ input ∈ keyHandoverRun.2, ∀ b ∈ rootConfig.predefinedAssertions,
      b.assertType = input.2.assertType → b.primaryKey ≠ input.2.primaryKey) :=
  ⟨by decide, rfl, by decide,
    add_run_vouches_findable prefixPrimitives rootConfig rootDatabase (by decide) rfl (by decide)
      keyHandoverInputs⟩

end Snapd.Asserts
