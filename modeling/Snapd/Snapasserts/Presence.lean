import Mathlib.Data.Finset.Card
import Snapd.Snapasserts.ValidationSets

/-! The presence that the constraints on one snap or component call for, as a function of the
constraints and not of the order they come in: `conflict` if one requires it and another marks
it invalid or two name different revisions; else `required` if one requires it; else
`invalid` if one marks it invalid or two name different revisions; else `optional`. The
revisions counted are those the constraints are filed under: a constraint that marks the snap
invalid is filed under `invalidPresRevision`, and one without a revision does not count.
`derivePresence` computes this presence one constraint at a time. -/

namespace Snapd.Snapasserts

/-- The number of distinct revisions other than `unspecifiedRevision`. -/
def distinctRevisions (revs : List Int) : Nat := (revs.toFinset.erase unspecifiedRevision).card

/-- The presence, from whether some constraint requires, whether some marks invalid, and
whether two or more revisions are named. -/
def presenceFrom (required invalid many : Bool) : Presence :=
  if required ∧ (invalid ∨ many) then .conflict
  else if required then .required
  else if invalid ∨ many then .invalid
  else .optional

/-- The presence that constraints `(presence, revision)` call for together. -/
def presenceOf (l : List (Presence × Int)) : Presence :=
  presenceFrom (l.any (·.1 = .required)) (l.any (·.1 = .invalid))
    (decide (2 ≤ distinctRevisions (l.map fun c => constraintRevision c.1 c.2)))

theorem distinctRevisions_perm {revs revs' : List Int} (h : revs.Perm revs') :
    distinctRevisions revs = distinctRevisions revs' := by
  rw [distinctRevisions, List.toFinset_eq_of_perm _ _ h, distinctRevisions]

theorem distinctRevisions_congr {revs revs' : List Int} (h : ∀ r, r ∈ revs ↔ r ∈ revs') :
    distinctRevisions revs = distinctRevisions revs' := by
  have hset : revs.toFinset = revs'.toFinset := by
    ext r
    simp [h r]
  rw [distinctRevisions, hset, distinctRevisions]

theorem distinctRevisions_append_le (revs more : List Int) :
    distinctRevisions revs ≤ distinctRevisions (revs ++ more) := by
  apply Finset.card_le_card
  apply Finset.erase_subset_erase
  intro r hr
  simp only [List.mem_toFinset, List.mem_append] at hr ⊢
  exact Or.inl hr

theorem distinctRevisions_singleton (r : Int) : distinctRevisions [r] ≤ 1 := by
  calc distinctRevisions [r] ≤ [r].toFinset.card := Finset.card_erase_le
    _ ≤ 1 := by simp

/-- The number of keys of a map of revisions with distinct keys, less one for
`unspecifiedRevision`, is `distinctRevisions` of its keys: the `ndiff` of `addSnap`. -/
theorem length_sub_eq_distinctRevisions {m : List (Int × List RevConstraint)}
    (h : (m.map Prod.fst).Nodup) :
    m.length - (if (AssocList.find m unspecifiedRevision).isSome then 1 else 0) =
      distinctRevisions (m.map Prod.fst) := by
  have hcard : (m.map Prod.fst).toFinset.card = m.length := by
    rw [List.toFinset_card_of_nodup h, List.length_map]
  rw [distinctRevisions]
  by_cases hmem : unspecifiedRevision ∈ m.map Prod.fst
  · rw [if_pos ((AssocList.isSome_find_iff m _).mpr hmem),
      Finset.card_erase_of_mem (List.mem_toFinset.mpr hmem), hcard]
  · have hfind : (AssocList.find m unspecifiedRevision).isSome = false := by
      rw [Bool.eq_false_iff]
      exact fun hsome => hmem ((AssocList.isSome_find_iff m _).mp hsome)
    rw [hfind, Finset.erase_eq_of_notMem (fun h => hmem (List.mem_toFinset.mp h)), hcard]
    rfl

theorem presenceOf_perm {l l' : List (Presence × Int)} (h : l.Perm l') :
    presenceOf l = presenceOf l' := by
  rw [presenceOf, presenceOf, h.any_eq, h.any_eq, distinctRevisions_perm (h.map _)]

/-- One step of `derivePresence` from the presence of some constraints to the presence of
those and one more, which names no fewer revisions. -/
theorem derivePresence_presenceFrom {required invalid : Bool} {incoming : Presence} {n n' : Nat}
    (hinc : incoming ≠ .conflict) (hn : n ≤ n') :
    derivePresence (presenceFrom required invalid (decide (2 ≤ n))) incoming n' =
      presenceFrom (required || decide (incoming = .required))
        (invalid || decide (incoming = .invalid)) (decide (2 ≤ n')) := by
  have hmany : (¬2 ≤ n ∧ ¬2 ≤ n') ∨ (¬2 ≤ n ∧ 2 ≤ n') ∨ (2 ≤ n ∧ 2 ≤ n') := by omega
  cases incoming with
  | conflict => exact absurd rfl hinc
  | required =>
    rcases hmany with ⟨h2, h2'⟩ | ⟨h2, h2'⟩ | ⟨h2, h2'⟩ <;> cases required <;> cases invalid <;>
      simp [presenceFrom, derivePresence, h2, h2'] <;> omega
  | optional =>
    rcases hmany with ⟨h2, h2'⟩ | ⟨h2, h2'⟩ | ⟨h2, h2'⟩ <;> cases required <;> cases invalid <;>
      simp [presenceFrom, derivePresence, h2, h2'] <;> omega
  | invalid =>
    rcases hmany with ⟨h2, h2'⟩ | ⟨h2, h2'⟩ | ⟨h2, h2'⟩ <;> cases required <;> cases invalid <;>
      simp [presenceFrom, derivePresence, h2, h2']

/-- `derivePresence` folds `presenceOf`: the presence of constraints `l` and one more `c` is
`derivePresence` of the presence of `l`, the presence of `c` and the number of revisions
that `l` and `c` name. -/
theorem presenceOf_append_singleton (l : List (Presence × Int)) {c : Presence × Int}
    (hc : c.1 ≠ .conflict) :
    presenceOf (l ++ [c]) = derivePresence (presenceOf l) c.1
      (distinctRevisions ((l ++ [c]).map fun c => constraintRevision c.1 c.2)) := by
  have hle : distinctRevisions (l.map fun c => constraintRevision c.1 c.2) ≤
      distinctRevisions ((l ++ [c]).map fun c => constraintRevision c.1 c.2) := by
    rw [List.map_append]
    exact distinctRevisions_append_le _ _
  simp only [presenceOf]
  rw [derivePresence_presenceFrom hc hle]
  simp only [List.any_append, List.any_cons, List.any_nil, Bool.or_false]

theorem presenceOf_singleton {c : Presence × Int} (hc : c.1 ≠ .conflict) :
    presenceOf [c] = c.1 := by
  have h1 : ¬2 ≤ distinctRevisions [constraintRevision c.1 c.2] := by
    have := distinctRevisions_singleton (constraintRevision c.1 c.2)
    omega
  obtain ⟨p, r⟩ := c
  cases p <;> simp_all [presenceOf, presenceFrom]

end Snapd.Snapasserts
