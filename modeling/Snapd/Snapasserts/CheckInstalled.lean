import Snapd.Snapasserts.AddOrder

/-! `CheckInstalledSnaps` fails exactly when a snap that is not ignored breaks one of its
constraints, or a component of an installed snap that is not ignored breaks one of its own.
Whether a snap is ignored and where it is looked up among the installed snaps depend on the
name its constraints keep, which is the name the first set that names its snap id gives it.
So the verdict does not depend on the order of the sets when they agree on the name of each
snap id, and it does when they do not: a snap renamed between two sets escapes
`ignoreValidation` in one order and not in the other. -/

namespace Snapd.Snapasserts

/-- Some constraint of `cs` is broken by the installed revision `installedRev`. -/
def Constraints.Breaks (cs : Constraints) (installedRev : Int) : Prop :=
  ∃ e ∈ cs.revisions, e.2 ≠ [] ∧ checkConstraintConformity installedRev e.1 cs.presence ≠ .valid

/-- No constraint is broken so far. -/
def ConformitySets.IsEmpty (st : ConformitySets) : Prop :=
  st.invalidSet = [] ∧ st.missingSets = [] ∧ st.wrongrevSets = []

theorem setAdd_ne_nil (set : List (List Char)) (key : List Char) : setAdd set key ≠ [] := by
  unfold setAdd
  split
  · rename_i hmem
    exact List.ne_nil_of_mem hmem
  · simp

theorem setToLists_eq_nil (set : List (List Char)) : setToLists set = [] ↔ set = [] := by
  have hperm := List.perm_insertionSort (fun a b => (!Snap.stringLess b a) = true) set
  constructor
  · intro hnil
    exact List.Perm.eq_nil (hnil ▸ hperm.symm)
  · intro hnil
    subst hnil
    rfl

theorem conformityStep_isEmpty (installedRev requiredRev : Int) (presence : Presence)
    (st : ConformitySets) (rc : RevConstraint) :
    (conformityStep installedRev requiredRev presence st rc).IsEmpty ↔
      st.IsEmpty ∧ checkConstraintConformity installedRev requiredRev presence = .valid := by
  unfold conformityStep ConformitySets.IsEmpty
  cases checkConstraintConformity installedRev requiredRev presence <;>
    simp [setAdd_ne_nil, AssocList.insert_ne_nil]

theorem foldl_conformityStep_isEmpty (installedRev requiredRev : Int) (presence : Presence)
    (rcs : List RevConstraint) (st : ConformitySets) :
    (rcs.foldl (conformityStep installedRev requiredRev presence) st).IsEmpty ↔
      st.IsEmpty ∧
        (rcs ≠ [] → checkConstraintConformity installedRev requiredRev presence = .valid) := by
  induction rcs generalizing st with
  | nil => simp
  | cons rc rcs ih =>
    rw [List.foldl_cons, ih, conformityStep_isEmpty]
    constructor
    · rintro ⟨⟨hst, hvalid⟩, -⟩
      exact ⟨hst, fun _ => hvalid⟩
    · rintro ⟨hst, hvalid⟩
      exact ⟨⟨hst, hvalid (List.cons_ne_nil _ _)⟩, fun _ => hvalid (List.cons_ne_nil _ _)⟩

theorem checkConstraints_eq_nil_iff (cs : Constraints) (installedRev : Int) :
    ((checkConstraints cs installedRev).1 = [] ∧ (checkConstraints cs installedRev).2.1 = [] ∧
      (checkConstraints cs installedRev).2.2 = []) ↔ ¬cs.Breaks installedRev := by
  -- the loop over the revisions keeps the sets empty while each revision is valid
  have hloop : ∀ (revs : List (Int × List RevConstraint)) (st : ConformitySets),
      (revs.foldl (fun st (e : Int × List RevConstraint) =>
        e.2.foldl (conformityStep installedRev e.1 cs.presence) st) st).IsEmpty ↔
      st.IsEmpty ∧ ∀ e ∈ revs, e.2 ≠ [] →
        checkConstraintConformity installedRev e.1 cs.presence = .valid := by
    intro revs
    induction revs with
    | nil => simp
    | cons e revs ih =>
      intro st
      rw [List.foldl_cons, ih, foldl_conformityStep_isEmpty]
      simp only [List.mem_cons, forall_eq_or_imp]
      tauto
  have hempty := hloop cs.revisions ⟨[], [], []⟩
  unfold checkConstraints Constraints.Breaks
  simp only [setToLists_eq_nil, List.map_eq_nil_iff]
  unfold ConformitySets.IsEmpty at hempty
  rw [hempty]
  simp

/-- Nothing reported. -/
def ManyConformity.IsEmpty (r : ManyConformity) : Prop :=
  r.invalid = [] ∧ r.missing = [] ∧ r.wrongrev = []

theorem checkManyStep_ok (installedRevision : Constraints → Except String Int)
    (ignore : List Char → Bool) (acc : ManyConformity) {cs : Constraints} {n : Int}
    (hn : installedRevision cs = .ok n) :
    ∃ acc', checkManyStep installedRevision ignore acc cs = .ok acc' ∧
      (acc'.IsEmpty ↔ acc.IsEmpty ∧ ((n ≠ 0 ∧ ignore cs.name = true) ∨ ¬cs.Breaks n)) := by
  by_cases hskip : n ≠ 0 ∧ ignore cs.name = true
  · refine ⟨acc, ?_, by simp [hskip]⟩
    simp only [checkManyStep, hn, bind, Except.bind, if_pos hskip, pure, Except.pure]
  · have hcheck := checkConstraints_eq_nil_iff cs n
    refine ⟨⟨if (checkConstraints cs n).1 ≠ [] then
        AssocList.insert acc.invalid cs.name (checkConstraints cs n).1 else acc.invalid,
      if (checkConstraints cs n).2.1 ≠ [] then
        AssocList.insert acc.missing cs.name (checkConstraints cs n).2.1 else acc.missing,
      if (checkConstraints cs n).2.2 ≠ [] then
        AssocList.insert acc.wrongrev cs.name (checkConstraints cs n).2.2 else acc.wrongrev⟩,
      by simp only [checkManyStep, hn, bind, Except.bind, if_neg hskip, pure, Except.pure], ?_⟩
    unfold ManyConformity.IsEmpty
    rw [← hcheck]
    by_cases hi : (checkConstraints cs n).1 = [] <;>
      by_cases hm : (checkConstraints cs n).2.1 = [] <;>
      by_cases hw : (checkConstraints cs n).2.2 = [] <;>
      simp [hi, hm, hw, hskip, AssocList.insert_ne_nil]

/-- `checkManyConstraints` over constraints whose installed revision is known reports nothing
exactly when each is ignored or unbroken. -/
theorem checkManyConstraints_ok (scs : List Constraints)
    (installedRevision : Constraints → Except String Int) (ignore : List Char → Bool)
    (hrev : ∀ cs ∈ scs, ∃ n, installedRevision cs = .ok n) :
    ∃ r, checkManyConstraints scs installedRevision ignore = .ok r ∧
      (r.IsEmpty ↔ ∀ cs ∈ scs, ∀ n, installedRevision cs = .ok n →
        (n ≠ 0 ∧ ignore cs.name = true) ∨ ¬cs.Breaks n) := by
  have hloop : ∀ (scs : List Constraints) (acc : ManyConformity),
      (∀ cs ∈ scs, ∃ n, installedRevision cs = .ok n) →
      ∃ r, scs.foldlM (checkManyStep installedRevision ignore) acc = .ok r ∧
        (r.IsEmpty ↔ acc.IsEmpty ∧ ∀ cs ∈ scs, ∀ n, installedRevision cs = .ok n →
          (n ≠ 0 ∧ ignore cs.name = true) ∨ ¬cs.Breaks n) := by
    intro scs
    induction scs with
    | nil =>
      intro acc _
      exact ⟨acc, rfl, by simp⟩
    | cons cs scs ih =>
      intro acc hrev
      obtain ⟨n, hn⟩ := hrev cs List.mem_cons_self
      obtain ⟨acc', hstep, hacc'⟩ := checkManyStep_ok installedRevision ignore acc hn
      obtain ⟨r, hrun, hr⟩ := ih acc' fun c hc => hrev c (List.mem_cons_of_mem _ hc)
      refine ⟨r, by rw [List.foldlM_cons, hstep]; exact hrun, ?_⟩
      rw [hr, hacc']
      simp only [List.mem_cons, forall_eq_or_imp, hn, Except.ok.injEq, forall_eq']
      tauto
  obtain ⟨r, hrun, hr⟩ := hloop scs ⟨[], [], []⟩ hrev
  exact ⟨r, hrun, by simpa [ManyConformity.IsEmpty] using hr⟩

/-- The snap of `cs` is ignored, or its installed revision breaks none of its constraints. -/
def snapConforms (installed : InstalledSnapSet) (ignore : List Char → Bool) (cs : Constraints) :
    Prop :=
  (snapInstalled installed cs ≠ 0 ∧ ignore cs.name = true) ∨
    ¬cs.Breaks (snapInstalled installed cs)

/-- No component of `sc` breaks its constraints at its installed revision. -/
def componentsConform (installed : InstalledSnapSet) (sc : SnapConstraints) : Prop :=
  ∀ e ∈ sc.componentConstraints, ∀ n, componentInstalled installed e.2 = .ok n → ¬e.2.Breaks n

/-- Every component accumulator has a component reference, as `addComponent` gives it. -/
def ValidationSets.HasComponentRefs (v : ValidationSets) : Prop :=
  ∀ e ∈ v.snaps, ∀ c ∈ e.2.componentConstraints, c.2.compRef.isSome

theorem componentInstalled_ok (installed : InstalledSnapSet) {cs : Constraints}
    (h : cs.compRef.isSome) : ∃ n, componentInstalled installed cs = .ok n := by
  unfold componentInstalled
  obtain ⟨compRef, hc⟩ := Option.isSome_iff_exists.mp h
  rw [hc]
  dsimp only
  cases installed.lookupComponent cs.snapRef compRef with
  | none => exact ⟨0, rfl⟩
  | some comp => exact ⟨comp.revision, rfl⟩

theorem checkComponentsStep_ok (installed : InstalledSnapSet) (ignore : List Char → Bool)
    (vcerrs : List (List Char × ValidationSetsComponentValidationError)) {sc : SnapConstraints}
    (hrefs : ∀ c ∈ sc.componentConstraints, c.2.compRef.isSome) :
    ∃ vcerrs', checkComponentsStep installed ignore (fun _ => false) vcerrs sc = .ok vcerrs' ∧
      (vcerrs' = [] ↔ vcerrs = [] ∧ (ignore sc.constraints.name = false →
        installed.contains sc.constraints.snapRef = true → componentsConform installed sc)) := by
  by_cases hskip : ignore sc.constraints.name = true ∨
      installed.contains sc.constraints.snapRef = false
  · refine ⟨vcerrs, ?_, ?_⟩
    · rcases hskip with hskip | hskip <;> simp [checkComponentsStep, hskip, pure, Except.pure]
    · rcases hskip with hskip | hskip <;> simp [hskip]
  · have hnot : ignore sc.constraints.name = false ∧
        installed.contains sc.constraints.snapRef = true := by
      simpa using hskip
    obtain ⟨r, hr, hrE⟩ := checkManyConstraints_ok (sc.componentConstraints.map (·.2))
      (componentInstalled installed) (fun _ => false) (by
        intro cs hcs
        obtain ⟨e, he, rfl⟩ := List.mem_map.mp hcs
        exact componentInstalled_ok installed (hrefs e he))
    have hconf : r.IsEmpty ↔ componentsConform installed sc := by
      rw [hrE, List.forall_mem_map]
      simp only [componentsConform, Bool.false_eq_true, and_false, false_or]
    refine ⟨if r.invalid ≠ [] ∨ r.missing ≠ [] ∨ r.wrongrev ≠ [] then
      AssocList.insert vcerrs sc.constraints.name ⟨r.invalid, r.missing, r.wrongrev⟩ else vcerrs,
      by simp [checkComponentsStep, hnot, hr, bind, Except.bind, pure, Except.pure]; split <;> rfl,
      ?_⟩
    rw [← hconf]
    unfold ManyConformity.IsEmpty
    by_cases hE : r.invalid = [] ∧ r.missing = [] ∧ r.wrongrev = []
    · simp [hE, hnot]
    · have hE' : r.invalid ≠ [] ∨ r.missing ≠ [] ∨ r.wrongrev ≠ [] := by tauto
      simp [hE, hE', hnot, AssocList.insert_ne_nil]

theorem checkInstalledComponents_ok (v : ValidationSets) (installed : InstalledSnapSet)
    (ignore : List Char → Bool) (hrefs : v.HasComponentRefs) :
    ∃ vcerrs, v.checkInstalledComponents installed ignore (fun _ => false) = .ok vcerrs ∧
      (vcerrs = [] ↔ ∀ e ∈ v.snaps, ignore e.2.constraints.name = false →
        installed.contains e.2.constraints.snapRef = true → componentsConform installed e.2) := by
  have hloop : ∀ (scs : List SnapConstraints)
      (vcerrs : List (List Char × ValidationSetsComponentValidationError)),
      (∀ sc ∈ scs, ∀ c ∈ sc.componentConstraints, c.2.compRef.isSome) →
      ∃ r, scs.foldlM (checkComponentsStep installed ignore fun _ => false) vcerrs = .ok r ∧
        (r = [] ↔ vcerrs = [] ∧ ∀ sc ∈ scs, ignore sc.constraints.name = false →
          installed.contains sc.constraints.snapRef = true → componentsConform installed sc) := by
    intro scs
    induction scs with
    | nil =>
      intro vcerrs _
      exact ⟨vcerrs, rfl, by simp⟩
    | cons sc scs ih =>
      intro vcerrs hrefs
      obtain ⟨vcerrs', hstep, hv'⟩ := checkComponentsStep_ok installed ignore vcerrs
        (hrefs sc List.mem_cons_self)
      obtain ⟨r, hrun, hr⟩ := ih vcerrs' fun c hc => hrefs c (List.mem_cons_of_mem _ hc)
      refine ⟨r, by rw [List.foldlM_cons, hstep]; exact hrun, ?_⟩
      rw [hr, hv']
      simp only [List.mem_cons, forall_eq_or_imp]
      tauto
  obtain ⟨r, hrun, hr⟩ := hloop (v.snaps.map (·.2)) [] (by
    intro sc hsc
    obtain ⟨e, he, rfl⟩ := List.mem_map.mp hsc
    exact hrefs e he)
  simp only [true_and, List.forall_mem_map] at hr
  exact ⟨r, hrun, hr⟩

/-- `CheckInstalledSnaps` succeeds exactly when every snap conforms, and so do the components
of every installed snap that is not ignored. -/
theorem checkInstalledSnaps_eq_ok_iff (v : ValidationSets) (snaps : List InstalledSnap)
    (ignoreValidation : List Char → Bool) (hrefs : v.HasComponentRefs) :
    v.checkInstalledSnaps snaps ignoreValidation = .ok () ↔
      (∀ e ∈ v.snaps, snapConforms (newInstalledSnapSet snaps) ignoreValidation e.2.constraints) ∧
      ∀ e ∈ v.snaps, ignoreValidation e.2.constraints.name = false →
        (newInstalledSnapSet snaps).contains e.2.constraints.snapRef = true →
        componentsConform (newInstalledSnapSet snaps) e.2 := by
  obtain ⟨r, hr, hrE⟩ := checkManyConstraints_ok (v.snaps.map (·.2.constraints))
    (.ok ∘ snapInstalled (newInstalledSnapSet snaps)) ignoreValidation
    (fun _ _ => ⟨_, rfl⟩)
  have hsnaps : r.IsEmpty ↔
      ∀ e ∈ v.snaps, snapConforms (newInstalledSnapSet snaps) ignoreValidation e.2.constraints := by
    rw [hrE, List.forall_mem_map]
    apply forall_congr'
    intro e
    apply imp_congr_right
    intro _
    constructor
    · intro h
      exact h _ rfl
    · intro h n hn
      have hrev : snapInstalled (newInstalledSnapSet snaps) e.2.constraints = n := Except.ok.inj hn
      subst hrev
      exact h
  unfold ValidationSets.checkInstalledSnaps
  simp only [hr]
  by_cases hE : r.IsEmpty
  · -- nothing is missing, so the components of the snaps that are not installed are skipped
    obtain ⟨hi, hm, hw⟩ := hE
    have hmissing : (fun name => (AssocList.find r.missing name).isSome) = fun _ => false := by
      funext name
      simp [hm]
    obtain ⟨vcerrs, hv, hvE⟩ := checkInstalledComponents_ok v (newInstalledSnapSet snaps)
      ignoreValidation hrefs
    have hall := hsnaps.mp ⟨hi, hm, hw⟩
    rw [hmissing, hv, ← hvE]
    dsimp only
    by_cases hvc : vcerrs = []
    · rw [if_neg (by simp [hi, hm, hw, hvc])]
      exact ⟨fun _ => ⟨hall, hvc⟩, fun _ => rfl⟩
    · rw [if_pos (by simp [hvc])]
      exact ⟨fun h => (by cases h), fun h => absurd h.2 hvc⟩
  · have hnot : ¬∀ e ∈ v.snaps,
        snapConforms (newInstalledSnapSet snaps) ignoreValidation e.2.constraints :=
      fun hall => hE (hsnaps.mpr hall)
    have hE' : r.invalid ≠ [] ∨ r.missing ≠ [] ∨ r.wrongrev ≠ [] := by
      unfold ManyConformity.IsEmpty at hE
      tauto
    refine ⟨fun h => ?_, fun h => absurd h.1 hnot⟩
    split at h
    · cases h
    · rw [if_pos (by tauto)] at h
      cases h

end Snapd.Snapasserts
