import Snapd.Asserts.Database

/-! No update that `Add` accepts is lost. The backstore's current revision under a key only goes
up, and `Add` refuses a key that a trusted or predefined assertion holds, which `Find` would see
first. So after any run of `Add`, `Find` with the primary key headers of an assertion added
returns it or a later revision of it. -/

namespace Snapd.Asserts

/-- The primary key headers of an assertion, what `HeadersFromPrimaryKey` makes of its
reference. -/
def Assertion.primaryKeyHeaders (a : Assertion) : List (List Char × List Char) :=
  a.assertType.primaryKey.map fun k => (k, a.headerString k)

/-- What a run of `Add` keeps of each assertion of the history `H`: its key has no empty value
and is in neither the trusted nor the predefined backstore, and the current assertion under it
in the backstore added to is of its revision or a later one. -/
def Kept (db : Database) (H : List (Int × Assertion)) : Prop :=
  ∀ a ∈ H.map Prod.snd, (∀ v ∈ a.primaryKey, v ≠ []) ∧
    db.trusted.get a.assertType a.primaryKey a.assertType.maxSupportedFormat = .error .notFound ∧
    db.predefined.get a.assertType a.primaryKey a.assertType.maxSupportedFormat =
      .error .notFound ∧
    ∃ c, db.bs.cur a.assertType a.primaryKey a.assertType.maxSupportedFormat = some c ∧
      a.revision ≤ c.revision

variable {checkers : List Checker}

theorem Kept.add {db db' : Database} {H : List (Int × Assertion)} (hkept : Kept db H) {now : Int}
    {a : Assertion} (h : db.add checkers now a = .ok db') : Kept db' (H ++ [(now, a)]) := by
  obtain ⟨hcheck, hput⟩ := Database.add_eq_ok h
  obtain ⟨hne, htrusted, hpredefined, bs, hbs, rfl⟩ := Database.putChecked_eq_ok hput
  have hformat : a.format ≤ a.assertType.maxSupportedFormat := by
    simpa [Assertion.supportedFormat] using Database.supportedFormat_of_check hcheck
  intro b hb
  rcases List.mem_append.mp (by simpa using hb : b ∈ H.map Prod.snd ++ [a]) with hb | hb
  · -- an earlier assertion: the put did not lower the revision under its key
    obtain ⟨hbne, hbtrusted, hbpredefined, c, hc, hbc⟩ := hkept b hb
    obtain ⟨c', hc', hcc'⟩ := MemoryBackstore.put_cur_le hbs hformat hc
    exact ⟨hbne, hbtrusted, hbpredefined, c', hc', hbc.trans hcc'⟩
  · -- the assertion added is the current one under its key
    rw [List.mem_singleton.mp hb]
    exact ⟨hne, htrusted, hpredefined, a, MemoryBackstore.put_cur hbs hformat, le_refl _⟩

/-- After any run of `Add`, with any checkers, `Find` with the primary key headers of an
assertion added returns an assertion of its type and primary key, of its revision or a later
one. -/
theorem added_assertions_stay_found (db : Database) (inputs : List (Int × Assertion)) :
    ∀ input ∈ (db.addRun checkers inputs).2, ∃ c,
      (db.addRun checkers inputs).1.find input.2.assertType input.2.primaryKeyHeaders = .ok c ∧
      c.assertType = input.2.assertType ∧ c.primaryKey = input.2.primaryKey ∧
      input.2.revision ≤ c.revision := by
  have hkept : Kept (db.addRun checkers inputs).1 (db.addRun checkers inputs).2 :=
    Run.run_invariant _ Kept (fun a ha => by simp at ha) (fun _ _ _ _ hkept h => hkept.add h) inputs
  intro input hin
  obtain ⟨hne, htrusted, hpredefined, c, hc, hrev⟩ := hkept input.2 (List.mem_map_of_mem hin)
  obtain ⟨-, hct, hck, -⟩ := MemoryBackstore.cur_eq_some hc
  exact ⟨c, Database.find_of_cur hne htrusted hpredefined hc, hct, hck, hrev⟩

/-- A database with empty backstores, stacked on nothing, with no earliest time. -/
def emptyDatabase : Database :=
  ⟨MemoryBackstore.empty, MemoryBackstore.empty, MemoryBackstore.empty, [], none⟩

/-- An account-key request, an assertion with no authority, for the key `K` at a revision. -/
def keyRequest (revision : Int) : Assertion :=
  ⟨.accountKeyRequest, [("public-key-sha3-384".toList, ['K'])], revision, 0, [], [], 0, 0, none⟩

/-- Revision 0 of the request, then revision 1, added with no checkers. -/
def keyRequestUpdateRun : Database × List (Int × Assertion) :=
  emptyDatabase.addRun [] [(1, keyRequest 0), (1, keyRequest 1)]

/-- Revision 0 of the request is added, and stays found after revision 1 replaces it. -/
theorem added_assertions_stay_found_on_key_request_update :
    (1, keyRequest 0) ∈ keyRequestUpdateRun.2 ∧ ∃ c,
      keyRequestUpdateRun.1.find .accountKeyRequest (keyRequest 0).primaryKeyHeaders = .ok c ∧
      c.assertType = .accountKeyRequest ∧ c.primaryKey = (keyRequest 0).primaryKey ∧
      (keyRequest 0).revision ≤ c.revision :=
  have hin : (1, keyRequest 0) ∈ keyRequestUpdateRun.2 := by decide
  ⟨hin, @added_assertions_stay_found [] emptyDatabase _ _ hin⟩

end Snapd.Asserts
