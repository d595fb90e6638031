import Snapd.Snapasserts.Presence

/-! `ValidationSets.Add` folds the snaps of each set into one accumulator per snap id, and the
components of each snap into one accumulator per component name. After any run of `Add` on
sets with distinct keys, each accumulator holds exactly the constraints that the sets place on
its snap or component, filed by revision, and its presence is `presenceOf` of them
(`ValidationSets.Holds`). Those constraints are the same, up to order, whatever the order of
the sets, so the presences and the verdict of `Conflict` are too. -/

namespace Snapd.Snapasserts

/-- The revision a constraint `(rc, revision)` is filed under. -/
def filedRevision (c : RevConstraint × Int) : Int := constraintRevision c.1.presence c.2

/-- `cs` holds the constraints `l`, each with the revision its set names: filed under
distinct revisions in the order they came, with the presence they call for together. -/
structure Constraints.Holds (cs : Constraints) (l : List (RevConstraint × Int)) : Prop where
  nodup : (cs.revisions.map Prod.fst).Nodup
  find_revisions : ∀ r, (AssocList.find cs.revisions r).getD [] =
    (l.filter fun c => filedRevision c = r).map (·.1)
  mem_keys : ∀ r, r ∈ cs.revisions.map Prod.fst ↔ r ∈ l.map filedRevision
  presence : cs.presence = presenceOf (l.map fun c => (c.1.presence, c.2))

theorem Constraints.holds_single (name : List Char) (snapRef : SnapRef)
    (compRef : Option ComponentRef) {c : RevConstraint × Int} (hc : c.1.presence ≠ .conflict) :
    (⟨name, c.1.presence, [(filedRevision c, [c.1])], snapRef, compRef⟩ : Constraints).Holds
      [c] := by
  refine ⟨by simp, ?_, by simp, ?_⟩
  · intro r
    by_cases hr : filedRevision c = r <;> simp [AssocList.find, hr]
  · exact (presenceOf_singleton (c := (c.1.presence, c.2)) hc).symm

theorem Constraints.Holds.add {cs : Constraints} {l : List (RevConstraint × Int)}
    (h : cs.Holds l) {c : RevConstraint × Int} (hc : c.1.presence ≠ .conflict) :
    (cs.add (filedRevision c) c.1).Holds (l ++ [c]) := by
  have hnodup : ((AssocList.appendAt cs.revisions (filedRevision c) c.1).map Prod.fst).Nodup :=
    AssocList.nodup_keys_insert h.nodup _ _
  have hkeys : ∀ r, r ∈ (AssocList.appendAt cs.revisions (filedRevision c) c.1).map Prod.fst ↔
      r ∈ (l ++ [c]).map filedRevision := by
    intro r
    rw [AssocList.mem_keys_appendAt, h.mem_keys]
    simp [or_comm]
  refine ⟨hnodup, ?_, hkeys, ?_⟩
  · intro r
    rw [Constraints.add, AssocList.find_appendAt]
    by_cases hr : filedRevision c = r
    · subst hr
      simp [h.find_revisions]
    · simp [hr, h.find_revisions r]
  · -- `ndiff` counts the revisions of all of `l` and `c`
    have hndiff := length_sub_eq_distinctRevisions hnodup
    rw [distinctRevisions_congr hkeys] at hndiff
    have hmap : (l ++ [c]).map (fun c => (c.1.presence, c.2)) =
        l.map (fun c => (c.1.presence, c.2)) ++ [(c.1.presence, c.2)] := by
      simp
    simp only [Constraints.add]
    rw [hndiff, h.presence, hmap, presenceOf_append_singleton _ (c := (c.1.presence, c.2)) hc]
    simp [filedRevision, Function.comp_def]
    rfl

/-- The constraint that the snap `e.1` of the set with key `e.2` places on its snap. -/
def snapConstraint (e : ValidationSetSnap × List Char) : RevConstraint × Int :=
  (⟨e.2, e.1.presence⟩, e.1.revision)

/-- The constraints that snaps `E` of sets, each with its set's key, place on their component
`c`. -/
def componentConstraintsOf (E : List (ValidationSetSnap × List Char)) (c : List Char) :
    List (RevConstraint × Int) :=
  E.flatMap fun e => (e.1.components.filter (·.1 = c)).map fun p =>
    (⟨e.2, p.2.presence⟩, p.2.revision)

/-- What the accumulator `cs` of the component `c` of a snap with name `name` and reference
`snapRef` keeps of the constraints `l`. -/
def ComponentHolds (name : List Char) (snapRef : SnapRef) (c : List Char) (cs : Constraints)
    (l : List (RevConstraint × Int)) : Prop :=
  cs.Holds l ∧ cs.name = c ∧ cs.snapRef = snapRef ∧ cs.compRef = some ⟨name, c⟩

/-- `sc` holds the snaps `E` of sets that name one snap id, each with its set's key: the
constraints on the snap, the name and reference of the first of them, and the constraints on
each component. -/
structure SnapConstraints.Holds (sc : SnapConstraints) (E : List (ValidationSetSnap × List Char)) :
    Prop where
  constraints : sc.constraints.Holds (E.map snapConstraint)
  name : E.head?.map (·.1.name) = some sc.constraints.name
  snapRef : E.head?.map (fun e => (⟨e.1.name, e.1.snapID⟩ : SnapRef)) = some sc.constraints.snapRef
  compRef : sc.constraints.compRef = none
  components : AssocList.Grouped sc.componentConstraints (componentConstraintsOf E)
    (ComponentHolds sc.constraints.name sc.constraints.snapRef)

theorem addComponent_eq (sc : SnapConstraints) (compName : List Char)
    (comp : ValidationSetComponent) (key : List Char) :
    sc.addComponent compName comp key =
      { sc with componentConstraints := (AssocList.upsert sc.componentConstraints compName
          ⟨compName, comp.presence, [(constraintRevision comp.presence comp.revision,
            [⟨key, comp.presence⟩])], sc.constraints.snapRef, some ⟨sc.constraints.name, compName⟩⟩
          (·.add (constraintRevision comp.presence comp.revision) ⟨key, comp.presence⟩)) } := by
  unfold SnapConstraints.addComponent AssocList.upsert
  cases AssocList.find sc.componentConstraints compName <;> rfl

/-- `addComponents` files the components of one snap of a set and leaves the constraints on
the snap alone. -/
theorem grouped_addComponents (sc : SnapConstraints)
    (comps : List (List Char × ValidationSetComponent)) (key : List Char)
    {F : List Char → List (RevConstraint × Int)}
    (h : AssocList.Grouped sc.componentConstraints F
      (ComponentHolds sc.constraints.name sc.constraints.snapRef)) :
    (sc.addComponents comps key).constraints = sc.constraints ∧
    AssocList.Grouped (sc.addComponents comps key).componentConstraints
      (fun c => F c ++ (comps.filter (·.1 = c)).map fun p => (⟨key, p.2.presence⟩, p.2.revision))
      (ComponentHolds sc.constraints.name sc.constraints.snapRef) := by
  induction comps generalizing sc F with
  | nil => exact ⟨rfl, by simpa [SnapConstraints.addComponents] using h⟩
  | cons p comps ih =>
    have hstep := h.upsert (k := p.1) (x := (⟨key, p.2.presence⟩, p.2.revision))
      ⟨p.1, p.2.presence, [(constraintRevision p.2.presence p.2.revision,
        [⟨key, p.2.presence⟩])], sc.constraints.snapRef, some ⟨sc.constraints.name, p.1⟩⟩
      (·.add (constraintRevision p.2.presence p.2.revision) ⟨key, p.2.presence⟩)
      ⟨Constraints.holds_single (c := (⟨key, p.2.presence⟩, p.2.revision)) _ _ _ p.2.presence_ne,
        rfl, rfl, rfl⟩
      (fun cs hcs => ⟨hcs.1.add (c := (⟨key, p.2.presence⟩, p.2.revision)) p.2.presence_ne, hcs.2⟩)
    obtain ⟨hcs, hg⟩ := ih (sc.addComponent p.1 p.2 key) (by rw [addComponent_eq]; exact hstep)
    have hfirst : (sc.addComponent p.1 p.2 key).constraints = sc.constraints := by
      rw [addComponent_eq]
    rw [hfirst] at hcs hg
    refine ⟨hcs, ?_⟩
    have hF : (fun c => (F c ++ if p.1 = c then [(⟨key, p.2.presence⟩, p.2.revision)] else []) ++
        (comps.filter (·.1 = c)).map fun p => ((⟨key, p.2.presence⟩ : RevConstraint), p.2.revision)) =
        fun c => F c ++ ((p :: comps).filter (·.1 = c)).map fun p =>
          ((⟨key, p.2.presence⟩ : RevConstraint), p.2.revision) := by
      funext c
      by_cases hc : p.1 = c <;> simp [hc]
    rw [hF] at hg
    exact hg

theorem addSnap_eq (v : ValidationSets) (sn : ValidationSetSnap) (key : List Char) :
    v.addSnap sn key =
      { v with snaps := (AssocList.upsert v.snaps sn.snapID
          ((⟨⟨sn.name, sn.presence, [(constraintRevision sn.presence sn.revision,
            [⟨key, sn.presence⟩])], ⟨sn.name, sn.snapID⟩, none⟩, []⟩ : SnapConstraints).addComponents
            sn.components key)
          fun sc => { sc.addComponents sn.components key with
            constraints := (sc.addComponents sn.components key).constraints.add
              (constraintRevision sn.presence sn.revision) ⟨key, sn.presence⟩ }) } := by
  unfold ValidationSets.addSnap AssocList.upsert
  cases AssocList.find v.snaps sn.snapID <;> rfl

theorem holds_fresh (sn : ValidationSetSnap) (key : List Char) :
    ((⟨⟨sn.name, sn.presence, [(constraintRevision sn.presence sn.revision,
      [⟨key, sn.presence⟩])], ⟨sn.name, sn.snapID⟩, none⟩, []⟩ : SnapConstraints).addComponents
      sn.components key).Holds [(sn, key)] := by
  obtain ⟨hcs, hg⟩ := grouped_addComponents
    ⟨⟨sn.name, sn.presence, [(constraintRevision sn.presence sn.revision,
      [⟨key, sn.presence⟩])], ⟨sn.name, sn.snapID⟩, none⟩, []⟩ sn.components key
    (AssocList.grouped_nil _)
  refine ⟨?_, ?_, ?_, ?_, ?_⟩
  · rw [hcs]
    exact Constraints.holds_single _ _ _ (c := snapConstraint (sn, key)) sn.presence_ne
  · simp [hcs]
  · simp [hcs]
  · simp [hcs]
  · have hF : componentConstraintsOf [(sn, key)] = fun c =>
        [] ++ (sn.components.filter (·.1 = c)).map fun p =>
          ((⟨key, p.2.presence⟩ : RevConstraint), p.2.revision) := by
      funext c
      simp [componentConstraintsOf]
    rw [hcs, hF]
    exact hg

theorem SnapConstraints.Holds.addSnap {sc : SnapConstraints}
    {E : List (ValidationSetSnap × List Char)} (h : sc.Holds E) (sn : ValidationSetSnap)
    (key : List Char) :
    ({ sc.addComponents sn.components key with
        constraints := (sc.addComponents sn.components key).constraints.add
          (constraintRevision sn.presence sn.revision) ⟨key, sn.presence⟩ } : SnapConstraints).Holds
      (E ++ [(sn, key)]) := by
  obtain ⟨hcs, hg⟩ := grouped_addComponents sc sn.components key h.components
  have hne : E ≠ [] := by
    intro hE
    have hname := h.name
    simp [hE] at hname
  have hhead : (E ++ [(sn, key)]).head? = E.head? := by
    cases E with
    | nil => exact absurd rfl hne
    | cons e E => rfl
  refine ⟨?_, ?_, ?_, ?_, ?_⟩
  · rw [hcs, List.map_append, List.map_singleton]
    exact h.constraints.add (c := snapConstraint (sn, key)) sn.presence_ne
  · simpa [hhead, hcs, Constraints.add] using h.name
  · simpa [hhead, hcs, Constraints.add] using h.snapRef
  · simpa [hcs, Constraints.add] using h.compRef
  · have hF : (fun c => componentConstraintsOf E c ++ (sn.components.filter (·.1 = c)).map
        fun p => ((⟨key, p.2.presence⟩ : RevConstraint), p.2.revision)) =
        componentConstraintsOf (E ++ [(sn, key)]) := by
      funext c
      simp [componentConstraintsOf]
    rw [hF] at hg
    simpa [hcs, Constraints.add] using hg

/-- The snaps of the sets, each with its set's key, that name the snap id `s`. -/
def snapEntries (valsets : List ValidationSet) (s : List Char) :
    List (ValidationSetSnap × List Char) :=
  valsets.flatMap fun vs => (vs.snaps.filter (·.snapID = s)).map (·, valSetKey vs)

/-- `v` holds the sets `valsets`, added in this order: their keys, and for each snap id the
snaps that name it. -/
structure ValidationSets.Holds (v : ValidationSets) (valsets : List ValidationSet) : Prop where
  sets : ∀ k, (AssocList.find v.sets k).isSome ↔ k ∈ valsets.map valSetKey
  snaps : AssocList.Grouped v.snaps (snapEntries valsets) fun _ sc E => sc.Holds E

theorem holds_newValidationSets : newValidationSets.Holds [] := by
  have hE : snapEntries [] = fun _ => [] := by
    funext s
    simp [snapEntries]
  refine ⟨fun _ => by simp [newValidationSets], ?_⟩
  rw [hE]
  exact AssocList.grouped_nil _

theorem grouped_foldl_addSnap (v : ValidationSets) (snaps : List ValidationSetSnap)
    (key : List Char) {E : List Char → List (ValidationSetSnap × List Char)}
    (h : AssocList.Grouped v.snaps E fun _ sc E => sc.Holds E) :
    (snaps.foldl (fun v sn => v.addSnap sn key) v).sets = v.sets ∧
    AssocList.Grouped (snaps.foldl (fun v sn => v.addSnap sn key) v).snaps
      (fun s => E s ++ (snaps.filter (·.snapID = s)).map (·, key)) fun _ sc E => sc.Holds E := by
  induction snaps generalizing v E with
  | nil => exact ⟨rfl, by simpa using h⟩
  | cons sn snaps ih =>
    have hstep := h.upsert (k := sn.snapID) (x := (sn, key)) _ _ (holds_fresh sn key)
      (fun sc hsc => hsc.addSnap sn key)
    obtain ⟨hsets, hg⟩ := ih (v.addSnap sn key) (by rw [addSnap_eq]; exact hstep)
    refine ⟨by rw [List.foldl_cons, hsets, addSnap_eq], ?_⟩
    have hE : (fun s => (E s ++ if sn.snapID = s then [(sn, key)] else []) ++
        (snaps.filter (·.snapID = s)).map (·, key)) =
        fun s => E s ++ ((sn :: snaps).filter (·.snapID = s)).map (·, key) := by
      funext s
      by_cases hs : sn.snapID = s <;> simp [hs]
    rw [hE] at hg
    exact hg

theorem ValidationSets.Holds.add {v : ValidationSets} {valsets : List ValidationSet}
    (h : v.Holds valsets) (vs : ValidationSet) (hkey : valSetKey vs ∉ valsets.map valSetKey) :
    ∃ v', v.add vs = .ok v' ∧ v'.Holds (valsets ++ [vs]) := by
  have hnew : (AssocList.find v.sets (valSetKey vs)).isSome = false := by
    rw [Bool.eq_false_iff]
    exact fun hsome => hkey ((h.sets _).mp hsome)
  obtain ⟨hsets, hg⟩ := grouped_foldl_addSnap
    { v with sets := (AssocList.insert v.sets (valSetKey vs) vs) } vs.snaps (valSetKey vs) h.snaps
  refine ⟨vs.snaps.foldl (fun v sn => v.addSnap sn (valSetKey vs))
    { v with sets := (AssocList.insert v.sets (valSetKey vs) vs) }, by simp [ValidationSets.add, hnew],
    ?_, ?_⟩
  · intro k
    rw [hsets]
    by_cases hk : valSetKey vs = k
    · subst hk
      simp
    · have hk' : k ≠ valSetKey vs := fun h' => hk h'.symm
      simp [AssocList.find_insert, hk, hk', h.sets k]
  · have hE : (fun s => snapEntries valsets s ++
        (vs.snaps.filter (·.snapID = s)).map (·, valSetKey vs)) = snapEntries (valsets ++ [vs]) := by
      funext s
      simp [snapEntries]
    rw [hE] at hg
    exact hg

theorem addAll_holds (valsets : List ValidationSet) (hkeys : (valsets.map valSetKey).Nodup) :
    ∃ v, addAll valsets = .ok v ∧ v.Holds valsets := by
  have hloop : ∀ (rest done : List ValidationSet) (v : ValidationSets), v.Holds done →
      ((done ++ rest).map valSetKey).Nodup →
      ∃ v', rest.foldlM ValidationSets.add v = .ok v' ∧ v'.Holds (done ++ rest) := by
    intro rest
    induction rest with
    | nil =>
      intro done v hv _
      exact ⟨v, rfl, by simpa using hv⟩
    | cons vs rest ih =>
      intro done v hv hnd
      have hkey : valSetKey vs ∉ done.map valSetKey := by
        intro hmem
        simp only [List.map_append, List.map_cons] at hnd
        exact (List.nodup_append.mp hnd).2.2 _ hmem _ List.mem_cons_self rfl
      obtain ⟨v₁, hadd, hv₁⟩ := hv.add vs hkey
      obtain ⟨v', hrun, hv'⟩ := ih (done ++ [vs]) v₁ hv₁ (by simpa using hnd)
      refine ⟨v', ?_, by simpa using hv'⟩
      rw [List.foldlM_cons, hadd]
      exact hrun
  simpa [addAll] using hloop valsets [] newValidationSets holds_newValidationSets hkeys

/-- The presence `Add` gave the snap with id `snapID`, if some set names it. -/
def ValidationSets.snapPresence (v : ValidationSets) (snapID : List Char) : Option Presence :=
  (AssocList.find v.snaps snapID).map (·.constraints.presence)

/-- The presence `Add` gave the component `compName` of the snap with id `snapID`, if some set
names it. -/
def ValidationSets.componentPresence (v : ValidationSets) (snapID compName : List Char) :
    Option Presence :=
  (AssocList.find v.snaps snapID).bind fun sc =>
    (AssocList.find sc.componentConstraints compName).map (·.presence)

/-- The constraints `(presence, revision)` that the sets place on the snap with id `s`. -/
def constraintsOnSnap (valsets : List ValidationSet) (s : List Char) : List (Presence × Int) :=
  valsets.flatMap fun vs => (vs.snaps.filter (·.snapID = s)).map fun sn => (sn.presence, sn.revision)

/-- The constraints `(presence, revision)` that the sets place on the component `c` of the
snap with id `s`. -/
def constraintsOnComponent (valsets : List ValidationSet) (s c : List Char) :
    List (Presence × Int) :=
  valsets.flatMap fun vs => (vs.snaps.filter (·.snapID = s)).flatMap fun sn =>
    (sn.components.filter (·.1 = c)).map fun p => (p.2.presence, p.2.revision)

/-- The presence that some constraints call for together; none without constraints. -/
def combinedPresence (l : List (Presence × Int)) : Option Presence :=
  if l = [] then none else some (presenceOf l)

theorem combinedPresence_perm {l l' : List (Presence × Int)} (h : l.Perm l') :
    combinedPresence l = combinedPresence l' := by
  unfold combinedPresence
  by_cases hl : l = []
  · subst hl
    have hl' : l' = [] := (List.Perm.nil_eq h).symm
    subst hl'
    rfl
  · have hl' : l' ≠ [] := fun hnil => hl (List.Perm.eq_nil (hnil ▸ h))
    rw [if_neg hl, if_neg hl', presenceOf_perm h]

theorem constraintsOnSnap_eq (valsets : List ValidationSet) (s : List Char) :
    constraintsOnSnap valsets s =
      ((snapEntries valsets s).map snapConstraint).map fun c => (c.1.presence, c.2) := by
  simp [constraintsOnSnap, snapEntries, snapConstraint, List.map_flatMap, Function.comp_def]

theorem constraintsOnComponent_eq (valsets : List ValidationSet) (s c : List Char) :
    constraintsOnComponent valsets s c =
      (componentConstraintsOf (snapEntries valsets s) c).map fun c => (c.1.presence, c.2) := by
  simp [constraintsOnComponent, componentConstraintsOf, snapEntries, List.map_flatMap,
    List.flatMap_assoc, List.flatMap_map, Function.comp_def]

section Holds

variable {v : ValidationSets} {valsets : List ValidationSet}

theorem ValidationSets.Holds.snapPresence (h : v.Holds valsets) (s : List Char) :
    v.snapPresence s = combinedPresence (constraintsOnSnap valsets s) := by
  unfold ValidationSets.snapPresence combinedPresence
  rw [constraintsOnSnap_eq]
  cases hfind : AssocList.find v.snaps s with
  | none =>
    have hnil := (h.snaps.find_eq_none s).mp hfind
    simp [hnil]
  | some sc =>
    have hne : snapEntries valsets s ≠ [] := fun hnil =>
      absurd ((h.snaps.find_eq_none s).mpr hnil) (by simp [hfind])
    have hsc := h.snaps.find_eq_some s sc hfind
    simp [hne, hsc.constraints.presence]

theorem ValidationSets.Holds.componentPresence (h : v.Holds valsets) (s c : List Char) :
    v.componentPresence s c = combinedPresence (constraintsOnComponent valsets s c) := by
  unfold ValidationSets.componentPresence combinedPresence
  rw [constraintsOnComponent_eq]
  cases hfind : AssocList.find v.snaps s with
  | none =>
    have hnil := (h.snaps.find_eq_none s).mp hfind
    simp [hnil, componentConstraintsOf]
  | some sc =>
    have hsc := h.snaps.find_eq_some s sc hfind
    cases hcomp : AssocList.find sc.componentConstraints c with
    | none =>
      have hnil := (hsc.components.find_eq_none c).mp hcomp
      simp [hnil, hcomp]
    | some cs =>
      have hne : componentConstraintsOf (snapEntries valsets s) c ≠ [] := fun hnil =>
        absurd ((hsc.components.find_eq_none c).mpr hnil) (by simp [hcomp])
      have hcs := hsc.components.find_eq_some c cs hcomp
      simp [hne, hcomp, hcs.1.presence]

end Holds

theorem constraintsOnSnap_perm {valsets σ : List ValidationSet} (hσ : σ.Perm valsets)
    (s : List Char) : (constraintsOnSnap σ s).Perm (constraintsOnSnap valsets s) :=
  hσ.flatMap_right _

theorem constraintsOnComponent_perm {valsets σ : List ValidationSet} (hσ : σ.Perm valsets)
    (s c : List Char) : (constraintsOnComponent σ s c).Perm (constraintsOnComponent valsets s c) :=
  hσ.flatMap_right _

theorem constraintsConflicts_isSome (c : Constraints) :
    (constraintsConflicts c).isSome ↔ c.presence = .conflict := by
  unfold constraintsConflicts
  by_cases hc : c.presence = .conflict
  · cases c.compRef <;> simp [hc]
  · simp [hc]

theorem conflicts_components_ne_nil (sc : SnapConstraints) :
    sc.conflicts.2 ≠ [] ↔ ∃ e ∈ sc.componentConstraints, e.2.presence = .conflict := by
  simp only [SnapConstraints.conflicts, ne_eq, List.filterMap_eq_nil_iff, not_forall,
    Option.map_eq_none_iff, exists_prop]
  constructor
  · rintro ⟨e, he, hsome⟩
    exact ⟨e, he, (constraintsConflicts_isSome e.2).mp (Option.ne_none_iff_isSome.mp hsome)⟩
  · rintro ⟨e, he, hpres⟩
    exact ⟨e, he, Option.ne_none_iff_isSome.mpr ((constraintsConflicts_isSome e.2).mpr hpres)⟩

/-- Whether the loop of `Conflict` has found a conflict so far. -/
def ConflictState.found (st : ConflictState) : Prop := st.snaps ≠ [] ∨ st.components ≠ []

theorem foldl_componentConflictStep (v : ValidationSets) (snapID : List Char)
    (cl : List (List Char × ConflictsError)) (st : ConflictState) :
    (cl.foldl (componentConflictStep v snapID) st).snaps = st.snaps ∧
    ((cl.foldl (componentConflictStep v snapID) st).components ≠ [] ↔
      st.components ≠ [] ∨ cl ≠ []) := by
  induction cl generalizing st with
  | nil => simp
  | cons e cl ih =>
    obtain ⟨hsnaps, hcomps⟩ := ih (componentConflictStep v snapID st e)
    refine ⟨hsnaps, ?_⟩
    rw [List.foldl_cons, hcomps]
    simp [componentConflictStep, AssocList.insert_ne_nil]

theorem conflictStep_found (v : ValidationSets) (st : ConflictState)
    (e : List Char × SnapConstraints) :
    (conflictStep v st e).found ↔
      st.found ∨ (constraintsConflicts e.2.constraints).isSome ∨ e.2.conflicts.2 ≠ [] := by
  obtain ⟨snapID, sc⟩ := e
  -- the snap's own conflict is recorded first, then those of its components
  have hsnap : ∀ st' : ConflictState, (st'.snaps ≠ [] ∨ st'.components ≠ [] ∨ sc.conflicts.2 ≠ []) ↔
      ((sc.conflicts.2.foldl (componentConflictStep v snapID)
        (if sc.conflicts.2 ≠ [] then
          { st' with components := (AssocList.insert st'.components snapID []) } else st')).found) := by
    intro st'
    obtain ⟨hsnaps, hcomps⟩ := foldl_componentConflictStep v snapID sc.conflicts.2
      (if sc.conflicts.2 ≠ [] then
        { st' with components := (AssocList.insert st'.components snapID []) } else st')
    unfold ConflictState.found
    rw [hsnaps, hcomps]
    by_cases hcl : sc.conflicts.2 ≠ [] <;> simp [hcl, AssocList.insert_ne_nil]
  unfold conflictStep
  simp only
  rw [← hsnap]
  cases hc : constraintsConflicts sc.constraints with
  | none => simp [SnapConstraints.conflicts, hc, ConflictState.found, or_assoc]
  | some e => simp [SnapConstraints.conflicts, hc, ConflictState.found, AssocList.insert_ne_nil]

theorem foldl_conflictStep_found (v : ValidationSets) (xs : List (List Char × SnapConstraints))
    (st : ConflictState) :
    (xs.foldl (conflictStep v) st).found ↔
      st.found ∨ ∃ e ∈ xs, (constraintsConflicts e.2.constraints).isSome ∨ e.2.conflicts.2 ≠ [] := by
  induction xs generalizing st with
  | nil => simp
  | cons e xs ih =>
    rw [List.foldl_cons, ih, conflictStep_found]
    simp only [List.mem_cons, exists_eq_or_imp, or_assoc]

theorem conflict_isSome_iff (v : ValidationSets) :
    v.conflict.isSome ↔
      ∃ e ∈ v.snaps, (constraintsConflicts e.2.constraints).isSome ∨ e.2.conflicts.2 ≠ [] := by
  have hfold := foldl_conflictStep_found v v.snaps ⟨[], [], []⟩
  simp only [ConflictState.found, ne_eq, not_true_eq_false, or_self, false_or] at hfold
  unfold ValidationSets.conflict
  dsimp only
  split
  · simp only [Option.isSome_some, true_iff]
    exact hfold.mp ‹_›
  · simp only [Option.isSome_none, Bool.false_eq_true, false_iff]
    exact fun hex => ‹¬_› (hfold.mpr hex)

/-- `Conflict` reports an error exactly when some snap or component has the presence
`conflict`. -/
theorem ValidationSets.Holds.conflict_isSome {v : ValidationSets}
    {valsets : List ValidationSet} (h : v.Holds valsets) :
    v.conflict.isSome ↔
      ∃ s, v.snapPresence s = some .conflict ∨ ∃ c, v.componentPresence s c = some .conflict := by
  rw [conflict_isSome_iff, AssocList.exists_mem_iff h.snaps.nodup
    (fun _ sc => (constraintsConflicts sc.constraints).isSome ∨ sc.conflicts.2 ≠ [])]
  constructor
  · rintro ⟨s, sc, hfind, hconf⟩
    refine ⟨s, ?_⟩
    have hsc := h.snaps.find_eq_some s sc hfind
    rcases hconf with hsnap | hcomp
    · left
      simp [ValidationSets.snapPresence, hfind, (constraintsConflicts_isSome _).mp hsnap]
    · right
      obtain ⟨c, cs, hcs, hpres⟩ := (AssocList.exists_mem_iff hsc.components.nodup
        (fun _ cs => cs.presence = .conflict)).mp ((conflicts_components_ne_nil sc).mp hcomp)
      exact ⟨c, by simp [ValidationSets.componentPresence, hfind, hcs, hpres]⟩
  · rintro ⟨s, hsnap | ⟨c, hcomp⟩⟩
    · simp only [ValidationSets.snapPresence, Option.map_eq_some_iff] at hsnap
      obtain ⟨sc, hfind, hpres⟩ := hsnap
      exact ⟨s, sc, hfind, .inl ((constraintsConflicts_isSome _).mpr hpres)⟩
    · simp only [ValidationSets.componentPresence, Option.bind_eq_some_iff,
        Option.map_eq_some_iff] at hcomp
      obtain ⟨sc, hfind, cs, hcs, hpres⟩ := hcomp
      have hsc := h.snaps.find_eq_some s sc hfind
      refine ⟨s, sc, hfind, .inr ((conflicts_components_ne_nil sc).mpr ?_)⟩
      exact (AssocList.exists_mem_iff hsc.components.nodup
        (fun _ cs => cs.presence = .conflict)).mpr ⟨c, cs, hcs, hpres⟩

end Snapd.Snapasserts
