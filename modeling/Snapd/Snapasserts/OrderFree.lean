import Snapd.Snapasserts.CheckInstalled

/-! The presences that `Add` computes, and the verdicts of `Conflict` and
`CheckInstalledSnaps`, for the same sets added in two orders. The presences and the verdict of
`Conflict` never depend on the order. The verdict of `CheckInstalledSnaps` depends on it only
through the name the constraints of a snap keep, which is the first set's name for its snap
id: it is the same in every order when the sets give each snap id one name, and not in
general. -/

namespace Snapd.Snapasserts

/-- What `CheckInstalledSnaps` reads of the constraints on one snap or component. -/
structure Constraints.Agree (cs cs' : Constraints) : Prop where
  name : cs.name = cs'.name
  snapRef : cs.snapRef = cs'.snapRef
  compRef : cs.compRef = cs'.compRef
  breaks : ∀ n, cs.Breaks n ↔ cs'.Breaks n

/-- What `CheckInstalledSnaps` reads of the constraints on one snap and on its components. -/
structure SnapConstraints.Agree (sc sc' : SnapConstraints) : Prop where
  constraints : sc.constraints.Agree sc'.constraints
  nodup : (sc.componentConstraints.map Prod.fst).Nodup
  nodup' : (sc'.componentConstraints.map Prod.fst).Nodup
  components : ∀ c, Option.Rel Constraints.Agree (AssocList.find sc.componentConstraints c)
    (AssocList.find sc'.componentConstraints c)

theorem Constraints.Holds.breaks_iff {cs : Constraints} {l : List (RevConstraint × Int)}
    (h : cs.Holds l) (n : Int) :
    cs.Breaks n ↔ ∃ c ∈ l, checkConstraintConformity n (filedRevision c) cs.presence ≠ .valid := by
  constructor
  · rintro ⟨⟨r, rcs⟩, hmem, hne, hconf⟩
    have hfind : AssocList.find cs.revisions r = some rcs :=
      (AssocList.find_eq_some_iff h.nodup r rcs).mpr hmem
    have hrcs := h.find_revisions r
    rw [hfind, Option.getD_some] at hrcs
    obtain ⟨c, hc, hfiled⟩ : ∃ c ∈ l, filedRevision c = r := by
      have hfilter : l.filter (fun c => filedRevision c = r) ≠ [] := by
        intro hnil
        rw [hnil, List.map_nil] at hrcs
        exact hne hrcs
      obtain ⟨c, hc⟩ := List.exists_mem_of_ne_nil _ hfilter
      simp only [List.mem_filter, decide_eq_true_eq] at hc
      exact ⟨c, hc.1, hc.2⟩
    exact ⟨c, hc, hfiled ▸ hconf⟩
  · rintro ⟨c, hc, hconf⟩
    have hkey : filedRevision c ∈ cs.revisions.map Prod.fst :=
      (h.mem_keys _).mpr (List.mem_map_of_mem hc)
    obtain ⟨rcs, hfind⟩ := Option.isSome_iff_exists.mp
      ((AssocList.isSome_find_iff _ _).mpr hkey)
    have hrcs := h.find_revisions (filedRevision c)
    rw [hfind, Option.getD_some] at hrcs
    have hne : rcs ≠ [] := by
      rw [hrcs]
      exact List.ne_nil_of_mem (List.mem_map_of_mem (List.mem_filter.mpr ⟨hc, by simp⟩))
    exact ⟨(filedRevision c, rcs), (AssocList.find_eq_some_iff h.nodup _ _).mp hfind, hne, hconf⟩

theorem Constraints.Holds.agree {cs cs' : Constraints} {l l' : List (RevConstraint × Int)}
    (h : cs.Holds l) (h' : cs'.Holds l') (hl : l.Perm l') (hname : cs.name = cs'.name)
    (hsnapRef : cs.snapRef = cs'.snapRef) (hcompRef : cs.compRef = cs'.compRef) :
    cs.Agree cs' := by
  have hpresence : cs.presence = cs'.presence := by
    rw [h.presence, h'.presence, presenceOf_perm (hl.map _)]
  refine ⟨hname, hsnapRef, hcompRef, fun n => ?_⟩
  rw [h.breaks_iff, h'.breaks_iff, hpresence]
  exact exists_congr fun c => and_congr_left fun _ => hl.mem_iff

theorem snapInstalled_congr (installed : InstalledSnapSet) {cs cs' : Constraints}
    (h : cs.snapRef = cs'.snapRef) : snapInstalled installed cs = snapInstalled installed cs' := by
  unfold snapInstalled
  rw [h]

theorem snapConforms_congr (installed : InstalledSnapSet) (ignore : List Char → Bool)
    {cs cs' : Constraints} (h : cs.Agree cs') :
    snapConforms installed ignore cs ↔ snapConforms installed ignore cs' := by
  unfold snapConforms
  rw [snapInstalled_congr installed h.snapRef, h.name, h.breaks]

theorem componentInstalled_congr (installed : InstalledSnapSet) {cs cs' : Constraints}
    (h : cs.Agree cs') : componentInstalled installed cs = componentInstalled installed cs' := by
  unfold componentInstalled
  rw [h.compRef, h.snapRef]

theorem componentsConform_congr (installed : InstalledSnapSet) {sc sc' : SnapConstraints}
    (h : sc.Agree sc') : componentsConform installed sc ↔ componentsConform installed sc' := by
  unfold componentsConform
  apply AssocList.forall_congr_of_rel h.nodup h.nodup' h.components
    (p := fun cs => ∀ n, componentInstalled installed cs = .ok n → ¬cs.Breaks n)
  intro cs cs' hcs
  rw [componentInstalled_congr installed hcs]
  exact forall_congr' fun n => imp_congr_right fun _ => not_congr (hcs.breaks n)

/-- `CheckInstalledSnaps` gives the same verdict on two states whose constraints agree snap id
by snap id. -/
theorem checkInstalledSnaps_congr {v v' : ValidationSets} (hrefs : v.HasComponentRefs)
    (hrefs' : v'.HasComponentRefs) (hnodup : (v.snaps.map Prod.fst).Nodup)
    (hnodup' : (v'.snaps.map Prod.fst).Nodup)
    (hagree : ∀ s, Option.Rel SnapConstraints.Agree (AssocList.find v.snaps s)
      (AssocList.find v'.snaps s))
    (snaps : List InstalledSnap) (ignoreValidation : List Char → Bool) :
    v.checkInstalledSnaps snaps ignoreValidation = .ok () ↔
      v'.checkInstalledSnaps snaps ignoreValidation = .ok () := by
  rw [checkInstalledSnaps_eq_ok_iff v snaps ignoreValidation hrefs,
    checkInstalledSnaps_eq_ok_iff v' snaps ignoreValidation hrefs']
  apply and_congr
  · exact AssocList.forall_congr_of_rel hnodup hnodup' hagree fun sc sc' hsc =>
      snapConforms_congr _ _ hsc.constraints
  · apply AssocList.forall_congr_of_rel hnodup hnodup' hagree
      (p := fun sc => ignoreValidation sc.constraints.name = false →
        (newInstalledSnapSet snaps).contains sc.constraints.snapRef = true →
        componentsConform (newInstalledSnapSet snaps) sc)
    intro sc sc' hsc
    rw [hsc.constraints.name, hsc.constraints.snapRef, componentsConform_congr _ hsc]

/-- Whether the sets give each snap id one name. -/
def namesAgree (valsets : List ValidationSet) : Bool :=
  valsets.all fun vs => valsets.all fun vs' => vs.snaps.all fun sn => vs'.snaps.all fun sn' =>
    decide (sn.snapID = sn'.snapID → sn.name = sn'.name)

theorem mem_snapEntries {valsets : List ValidationSet} {s : List Char}
    {e : ValidationSetSnap × List Char} :
    e ∈ snapEntries valsets s ↔ ∃ vs ∈ valsets, e.1 ∈ vs.snaps ∧ e.1.snapID = s ∧
      e.2 = valSetKey vs := by
  obtain ⟨sn, key⟩ := e
  simp only [snapEntries, List.mem_flatMap, List.mem_map, List.mem_filter, decide_eq_true_eq,
    Prod.mk.injEq]
  constructor
  · rintro ⟨vs, hvs, sn', ⟨hsn', hid⟩, rfl, rfl⟩
    exact ⟨vs, hvs, hsn', hid, rfl⟩
  · rintro ⟨vs, hvs, hsn, hid, rfl⟩
    exact ⟨vs, hvs, sn, ⟨hsn, hid⟩, rfl, rfl⟩

theorem name_eq_of_namesAgree {valsets : List ValidationSet} (hnames : namesAgree valsets = true)
    {s : List Char} {e e' : ValidationSetSnap × List Char} (he : e ∈ snapEntries valsets s)
    (he' : e' ∈ snapEntries valsets s) : e.1.name = e'.1.name := by
  obtain ⟨vs, hvs, hsn, hid, -⟩ := mem_snapEntries.mp he
  obtain ⟨vs', hvs', hsn', hid', -⟩ := mem_snapEntries.mp he'
  simp only [namesAgree, List.all_eq_true, decide_eq_true_eq] at hnames
  exact hnames vs hvs vs' hvs' e.1 hsn e'.1 hsn' (hid.trans hid'.symm)

theorem SnapConstraints.Holds.exists_entry {sc : SnapConstraints}
    {E : List (ValidationSetSnap × List Char)} (h : sc.Holds E) :
    ∃ e ∈ E, sc.constraints.name = e.1.name ∧ sc.constraints.snapRef = ⟨e.1.name, e.1.snapID⟩ := by
  cases E with
  | nil =>
    have hname := h.name
    simp at hname
  | cons e E =>
    have hname := h.name
    have hsnapRef := h.snapRef
    simp only [List.head?_cons, Option.map_some, Option.some.injEq] at hname hsnapRef
    exact ⟨e, List.mem_cons_self, hname.symm, hsnapRef.symm⟩

theorem ValidationSets.Holds.hasComponentRefs {v : ValidationSets} {valsets : List ValidationSet}
    (h : v.Holds valsets) : v.HasComponentRefs := by
  intro e he c hc
  have hsc := h.snaps.find_eq_some e.1 e.2 ((AssocList.find_eq_some_iff h.snaps.nodup _ _).mpr he)
  have hcs := hsc.components.find_eq_some c.1 c.2
    ((AssocList.find_eq_some_iff hsc.components.nodup _ _).mpr hc)
  rw [hcs.2.2.2]
  rfl

theorem ValidationSets.Holds.agree {v v' : ValidationSets} {valsets σ : List ValidationSet}
    (h : v.Holds valsets) (h' : v'.Holds σ) (hσ : σ.Perm valsets)
    (hnames : namesAgree valsets = true) (s : List Char) :
    Option.Rel SnapConstraints.Agree (AssocList.find v.snaps s) (AssocList.find v'.snaps s) := by
  have hE : ∀ s, (snapEntries σ s).Perm (snapEntries valsets s) := fun s => hσ.flatMap_right _
  refine h.snaps.rel h'.snaps (fun s => ⟨fun hnil => List.Perm.eq_nil (hnil ▸ hE s),
    fun hnil => List.Perm.eq_nil (hnil ▸ (hE s).symm)⟩) (fun s sc sc' hsc hsc' => ?_) s
  obtain ⟨e, he, hname, hsnapRef⟩ := hsc.exists_entry
  obtain ⟨e', he', hname', hsnapRef'⟩ := hsc'.exists_entry
  have hsame : e.1.name = e'.1.name :=
    name_eq_of_namesAgree hnames he ((hE s).subset he')
  have hid : e.1.snapID = e'.1.snapID := by
    rw [(mem_snapEntries.mp he).choose_spec.2.2.1, (mem_snapEntries.mp he').choose_spec.2.2.1]
  have hnames' : sc.constraints.name = sc'.constraints.name := by rw [hname, hname', hsame]
  have hrefs : sc.constraints.snapRef = sc'.constraints.snapRef := by
    rw [hsnapRef, hsnapRef', hsame, hid]
  refine ⟨hsc.constraints.agree hsc'.constraints ((hE s).symm.map _) hnames' hrefs
      (by rw [hsc.compRef, hsc'.compRef]), hsc.components.nodup, hsc'.components.nodup, ?_⟩
  have hC : ∀ c, (componentConstraintsOf (snapEntries σ s) c).Perm
      (componentConstraintsOf (snapEntries valsets s) c) := fun c => (hE s).flatMap_right _
  refine hsc.components.rel hsc'.components (fun c => ⟨fun hnil => List.Perm.eq_nil
    (hnil ▸ hC c), fun hnil => List.Perm.eq_nil (hnil ▸ (hC c).symm)⟩) ?_
  intro c cs cs' hcs hcs'
  exact hcs.1.agree hcs'.1 (hC c).symm (hcs.2.1.trans hcs'.2.1.symm)
    (by rw [hcs.2.2.1, hcs'.2.2.1, hrefs]) (by rw [hcs.2.2.2, hcs'.2.2.2, hnames'])

theorem toBool_eq_of_iff {ε : Type} {x y : Except ε Unit} (h : x = .ok () ↔ y = .ok ()) :
    x.toBool = y.toBool := by
  cases x <;> cases y <;> simp_all [Except.toBool]

/-- For sets with distinct keys, `Add` in any order succeeds; each snap and each component gets
the presence its constraints call for together, the same in every order; `Conflict` reports
the same in every order; and so does `CheckInstalledSnaps` when the sets give each snap id one
name. -/
theorem add_presence_and_verdicts_order_free (valsets σ : List ValidationSet)
    (hkeys : (valsets.map valSetKey).Nodup) (hσ : σ.Perm valsets) :
    ∃ v v', addAll valsets = .ok v ∧ addAll σ = .ok v' ∧
      (∀ s, v.snapPresence s = combinedPresence (constraintsOnSnap valsets s) ∧
        v'.snapPresence s = v.snapPresence s) ∧
      (∀ s c, v.componentPresence s c = combinedPresence (constraintsOnComponent valsets s c) ∧
        v'.componentPresence s c = v.componentPresence s c) ∧
      v'.conflict.isSome = v.conflict.isSome ∧
      (namesAgree valsets = true → ∀ snaps ignoreValidation,
        (v'.checkInstalledSnaps snaps ignoreValidation).toBool =
          (v.checkInstalledSnaps snaps ignoreValidation).toBool) := by
  obtain ⟨v, hv, h⟩ := addAll_holds valsets hkeys
  obtain ⟨v', hv', h'⟩ := addAll_holds σ ((hσ.map valSetKey).nodup_iff.mpr hkeys)
  have hsnap : ∀ s, v'.snapPresence s = v.snapPresence s := fun s => by
    rw [h.snapPresence, h'.snapPresence, combinedPresence_perm (constraintsOnSnap_perm hσ s)]
  have hcomp : ∀ s c, v'.componentPresence s c = v.componentPresence s c := fun s c => by
    rw [h.componentPresence, h'.componentPresence,
      combinedPresence_perm (constraintsOnComponent_perm hσ s c)]
  refine ⟨v, v', hv, hv', fun s => ⟨h.snapPresence s, hsnap s⟩,
    fun s c => ⟨h.componentPresence s c, hcomp s c⟩, ?_, ?_⟩
  · rw [Bool.eq_iff_iff, h'.conflict_isSome, h.conflict_isSome]
    simp only [hsnap, hcomp]
  · intro hnames snaps ignoreValidation
    apply toBool_eq_of_iff
    exact (checkInstalledSnaps_congr h.hasComponentRefs h'.hasComponentRefs h.snaps.nodup
      h'.snaps.nodup (h.agree h' hσ hnames) snaps ignoreValidation).symm

/-- The set `acme/one`: the snap with id `snapid1`, named `foo`, required at revision 5. -/
def requiresFoo : ValidationSet :=
  ⟨"acme".toList, "one".toList, [⟨"foo".toList, "snapid1".toList, .required, 5, [], by decide⟩]⟩

/-- The set `acme/two`: the same snap, optional at revision 7, with its component `extra`
marked invalid. -/
def allowsFooExtraInvalid : ValidationSet :=
  ⟨"acme".toList, "two".toList, [⟨"foo".toList, "snapid1".toList, .optional, 7,
    [("extra".toList, ⟨.invalid, 0, by decide⟩)], by decide⟩]⟩

theorem add_presence_and_verdicts_order_free_on_two_sets :
    ∃ v v', addAll [requiresFoo, allowsFooExtraInvalid] = .ok v ∧
      addAll [allowsFooExtraInvalid, requiresFoo] = .ok v' ∧
      (∀ s, v.snapPresence s =
          combinedPresence (constraintsOnSnap [requiresFoo, allowsFooExtraInvalid] s) ∧
        v'.snapPresence s = v.snapPresence s) ∧
      (∀ s c, v.componentPresence s c =
          combinedPresence (constraintsOnComponent [requiresFoo, allowsFooExtraInvalid] s c) ∧
        v'.componentPresence s c = v.componentPresence s c) ∧
      v'.conflict.isSome = v.conflict.isSome ∧
      (namesAgree [requiresFoo, allowsFooExtraInvalid] = true → ∀ snaps ignoreValidation,
        (v'.checkInstalledSnaps snaps ignoreValidation).toBool =
          (v.checkInstalledSnaps snaps ignoreValidation).toBool) :=
  add_presence_and_verdicts_order_free [requiresFoo, allowsFooExtraInvalid]
    [allowsFooExtraInvalid, requiresFoo] (by decide) (List.Perm.swap _ _ _)

example : (addAll [requiresFoo, allowsFooExtraInvalid]).toOption.map
      (fun v => (v.snapPresence "snapid1".toList,
        v.componentPresence "snapid1".toList "extra".toList)) =
    some (some .conflict, some .invalid) := by
  decide

/-- The set `acme/three`: the snap with id `snapid1` required at revision 5, under the name
`bar` it was renamed to. -/
def requiresBar : ValidationSet :=
  ⟨"acme".toList, "three".toList, [⟨"bar".toList, "snapid1".toList, .required, 5, [], by decide⟩]⟩

/-- The snap `foo` with id `snapid1` installed at revision 3. -/
def fooAtThree : List InstalledSnap := [⟨⟨"foo".toList, "snapid1".toList⟩, 3, []⟩]

/-- Two sets require the snap `snapid1` at revision 5, one as `foo` and one as `bar`, and `foo`
is installed at revision 3 with validation ignored for `foo`. Added with the `foo` set first,
the constraints keep the name `foo`, the snap is ignored and `CheckInstalledSnaps` succeeds;
added the other way round they keep `bar`, and it reports the wrong revision. -/
theorem renamed_snap_escapes_ignore_in_one_order :
    ∃ v v', addAll [requiresFoo, requiresBar] = .ok v ∧ addAll [requiresBar, requiresFoo] = .ok v' ∧
      (v.checkInstalledSnaps fooAtThree fun name => name = "foo".toList).toBool = true ∧
      (v'.checkInstalledSnaps fooAtThree fun name => name = "foo".toList).toBool = false :=
  ⟨_, _, rfl, rfl, by decide, by decide⟩

end Snapd.Snapasserts
