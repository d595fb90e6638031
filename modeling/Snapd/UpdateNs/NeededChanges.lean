import Snapd.UpdateNs.MountOrder

/-! What `neededChanges` asks for. Each desired entry is either kept, through a current entry
on its mount point with its file system type, or mounted once; nothing else is mounted. Which
entries are reused depends on the desired entries only as a set, so the result does not depend
on the orders that Go leaves open. -/

namespace Snapd.UpdateNs

open Osutil GoPath

section DesiredMaps

variable {D D' : List MountEntry}

theorem find_desiredMapOf_of_mem (hD : (D.map MountEntry.dir).Nodup) {d : MountEntry}
    (hd : d ∈ D) : AssocList.find (desiredMapOf D) d.dir = some d :=
  AssocList.find_foldl_insert_of_mem MountEntry.dir (fun e => e) hD hd []

theorem find_desiredMapOf_perm (hD : (D.map MountEntry.dir).Nodup) (hp : D.Perm D')
    (k : List Char) : AssocList.find (desiredMapOf D) k = AssocList.find (desiredMapOf D') k :=
  AssocList.find_foldl_insert_perm MountEntry.dir (fun e => e) hD hp [] k

theorem find_desiredIDsOf (D : List MountEntry) (k : List Char) :
    (AssocList.find (desiredIDsOf D) k).getD false = decide (k ∈ D.map MountEntry.xSnapdEntryID) := by
  rw [desiredIDsOf, AssocList.find_foldl_insert_const]
  split <;> simp [*]

/-- Whether an entry is reusable depends on the desired entries as a set, when they are on
distinct mount points: not on the order the sort leaves them in. -/
theorem reusable_perm (hD : (D.map MountEntry.dir).Nodup) (hp : D.Perm D') (e : MountEntry) :
    reusable (desiredMapOf D) (desiredIDsOf D) e = reusable (desiredMapOf D') (desiredIDsOf D') e := by
  simp only [reusable, find_desiredMapOf_perm hD hp, find_desiredIDsOf, (hp.map _).mem_iff]

/-- A desired entry on a mount point of its own is reusable: the desired map finds the entry
itself there. -/
theorem reusable_of_mem (hD : (D.map MountEntry.dir).Nodup) {d : MountEntry} (hd : d ∈ D) :
    reusable (desiredMapOf D) (desiredIDsOf D) d = true := by
  have hself : d.equal d = true := MountEntry.equal_iff.mpr rfl
  simp only [reusable, find_desiredMapOf_of_mem hD hd, hself]
  split_ifs <;> rfl

end DesiredMaps

section ReuseLoop

variable {desiredMap : List (List Char × MountEntry)} {desiredIDs : List (List Char × Bool)}

theorem reused_eq_of_id_eq {reuse : List ((List Char × List Char) × Bool)} {e e' : MountEntry}
    (h : mountEntryId e = mountEntryId e') : reused reuse e = reused reuse e' := by
  simp only [reused, h]

theorem reuseStep_reuse (st : ReuseState) (entry : MountEntry) :
    (reuseStep desiredMap desiredIDs st entry).reuse = st.reuse ∨
      (reusable desiredMap desiredIDs entry = true ∧
        (reuseStep desiredMap desiredIDs st entry).reuse =
          AssocList.insert st.reuse (mountEntryId entry) true) := by
  unfold reuseStep
  split
  · exact .inl rfl
  · split
    · exact .inr ⟨‹_›, rfl⟩
    · exact .inl rfl

theorem reuseStep_of_reusable {st : ReuseState} {entry : MountEntry} (hskip : st.skipDir = [])
    (h : reusable desiredMap desiredIDs entry = true) :
    reuseStep desiredMap desiredIDs st entry =
      ⟨AssocList.insert st.reuse (mountEntryId entry) true, []⟩ := by
  simp [reuseStep, hskip, h]

theorem reuseLoop_sound (env : Env) (current : List MountEntry) {e : MountEntry}
    (h : reused (reuseLoop env desiredMap desiredIDs current).reuse e = true) :
    ∃ x ∈ current, mountEntryId x = mountEntryId e ∧ reusable desiredMap desiredIDs x = true := by
  have := Run.foldl_invariant (reuseStep desiredMap desiredIDs)
    (fun st H => ∀ e, reused st.reuse e = true →
      ∃ x ∈ H, mountEntryId x = mountEntryId e ∧ reusable desiredMap desiredIDs x = true)
    (env.sortByOvername current)
    (fun st H a _ hH e he => by
      rcases reuseStep_reuse st a with hr | ⟨ha, hr⟩
      · obtain ⟨x, hx, hxe⟩ := hH e (by rwa [← hr])
        exact ⟨x, List.mem_append_left _ hx, hxe⟩
      · simp only [reused, hr, AssocList.find_insert] at he
        split at he
        · exact ⟨a, by simp, ‹_›, ha⟩
        · obtain ⟨x, hx, hxe⟩ := hH e he
          exact ⟨x, List.mem_append_left _ hx, hxe⟩)
    ⟨[], []⟩ [] (fun e he => by simp [reused] at he) e h
  obtain ⟨x, hx, hxe⟩ := this
  exact ⟨x, (env.sortByOvername_perm current).subset (by simpa using hx), hxe⟩

theorem reuseLoop_complete (env : Env) {current : List MountEntry}
    (h : ∀ x ∈ current, reusable desiredMap desiredIDs x = true) {e : MountEntry}
    (he : mountEntryId e ∈ current.map mountEntryId) :
    reused (reuseLoop env desiredMap desiredIDs current).reuse e = true := by
  have := Run.foldl_invariant (reuseStep desiredMap desiredIDs)
    (fun st H => st.skipDir = [] ∧ ∀ x ∈ H, reused st.reuse x = true)
    (env.sortByOvername current)
    (fun st H a ha ⟨hskip, hH⟩ => by
      rw [reuseStep_of_reusable hskip (h a ((env.sortByOvername_perm current).subset ha))]
      refine ⟨rfl, fun x hx => ?_⟩
      simp only [reused, AssocList.find_insert]
      split
      · rfl
      · rcases List.mem_append.mp hx with hx | hx
        · exact hH x hx
        · simp_all)
    ⟨[], []⟩ [] ⟨rfl, by simp⟩
  obtain ⟨x, hx, hxe⟩ := List.mem_map.mp he
  rw [← reused_eq_of_id_eq hxe]
  exact this.2 x (by simpa using (env.sortByOvername_perm current).mem_iff.mpr hx)

end ReuseLoop

/-- What the change for a current entry can be: a keep of the entry itself where it is reused,
an unmount otherwise. -/
theorem unmountChange_cases (reuse : List ((List Char × List Char) × Bool)) (x : MountEntry) :
    (reused reuse x = true ∧ unmountChange reuse x = ⟨.keep, x⟩) ∨
      (reused reuse x = false ∧ (unmountChange reuse x).action = .unmount) := by
  unfold unmountChange
  split
  · exact .inl ⟨‹_›, rfl⟩
  · dsimp only
    refine .inr ⟨Bool.eq_false_iff.mpr ‹_›, ?_⟩
    split <;> rfl

theorem unmountChange_keep_iff {reuse : List ((List Char × List Char) × Bool)} {e x : MountEntry} :
    unmountChange reuse x = ⟨.keep, e⟩ ↔ x = e ∧ reused reuse x = true := by
  rcases unmountChange_cases reuse x with ⟨hr, hc⟩ | ⟨hr, hc⟩
  · simp [hc, hr]
  · constructor
    · intro h
      rw [h] at hc
      cases hc
    · rintro ⟨-, h⟩
      simp [hr] at h

theorem unmountChange_ne_mount (reuse : List ((List Char × List Char) × Bool)) (x e : MountEntry) :
    unmountChange reuse x ≠ ⟨.mount, e⟩ := by
  intro h
  rcases unmountChange_cases reuse x with ⟨-, hc⟩ | ⟨-, hc⟩
  · rw [hc] at h
    cases h
  · rw [h] at hc
    cases hc

/-- The changes `neededChanges` returns: a keep of each reused current entry, and a mount of
each entry the ordering returns. -/
theorem keep_mem_changes {current out : List MountEntry} {reuse : List ((List Char × List Char) × Bool)}
    {e : MountEntry} :
    ⟨.keep, e⟩ ∈ current.reverse.map (unmountChange reuse) ++ out.map (fun e => ⟨.mount, e⟩) ↔
      e ∈ current ∧ reused reuse e = true := by
  simp only [List.mem_append, List.mem_map, List.mem_reverse, unmountChange_keep_iff]
  constructor
  · rintro (⟨x, hx, rfl, hr⟩ | ⟨_, _, h⟩)
    · exact ⟨hx, hr⟩
    · cases h
  · rintro ⟨he, hr⟩
    exact .inl ⟨e, he, rfl, hr⟩

theorem mount_mem_changes {current out : List MountEntry} {reuse : List ((List Char × List Char) × Bool)}
    {e : MountEntry} :
    ⟨.mount, e⟩ ∈ current.reverse.map (unmountChange reuse) ++ out.map (fun e => ⟨.mount, e⟩) ↔
      e ∈ out := by
  simp only [List.mem_append, List.mem_map, List.mem_reverse, Change.mk.injEq, true_and]
  constructor
  · rintro (⟨x, -, h⟩ | ⟨x, hx, rfl⟩)
    · exact absurd h (unmountChange_ne_mount reuse x e)
    · exact hx
  · exact fun he => .inr ⟨e, he, rfl⟩

/-- The entries `neededChanges` mounts are the desired entries that are not reused, each once,
when the desired entries are on distinct mount points. -/
theorem mountOrder_perm_of_neededChanges {env : Env} {desired out : List MountEntry}
    {reuse : List ((List Char × List Char) × Bool)}
    (hdes : ((cleanDirs desired).map MountEntry.dir).Nodup)
    (h : mountOrder env ((env.sortByOrigin (cleanDirs desired)).filter fun e => !reused reuse e) =
      some out) :
    out.Perm ((env.sortByOrigin (cleanDirs desired)).filter fun e => !reused reuse e) := by
  have hD : ((env.sortByOrigin (cleanDirs desired)).map MountEntry.dir).Nodup :=
    ((env.sortByOrigin_perm _).map _).nodup_iff.mpr hdes
  exact mountOrder_perm env ((List.filter_sublist.map _).nodup hD) h

/-- Each desired entry is accounted for by the changes: on distinct mount points, it is either
mounted exactly once, with no entry kept on its mount point with its type, or not mounted, and
a current entry on its mount point with its type is kept; and only desired entries are
mounted. This holds whatever the file system probes answer and whichever orders the sorts and
the `range` loops take. -/
theorem neededChanges_accounts_for_desired (env : Env) (current desired : List MountEntry)
    (changes : List Change) (hdes : ((cleanDirs desired).map MountEntry.dir).Nodup)
    (h : neededChanges env current desired = some changes) :
    (∀ e, ⟨.mount, e⟩ ∈ changes → e ∈ cleanDirs desired) ∧
      ∀ d ∈ cleanDirs desired,
        (changes.count ⟨.mount, d⟩ = 1 ∧
            ∀ e, ⟨.keep, e⟩ ∈ changes → mountEntryId e ≠ mountEntryId d) ∨
          (⟨.mount, d⟩ ∉ changes ∧ ∃ e, ⟨.keep, e⟩ ∈ changes ∧ mountEntryId e = mountEntryId d) := by
  obtain ⟨out, hout, rfl⟩ := Option.map_eq_some_iff.mp h
  set R := (reuseLoop env (desiredMapOf (env.sortByOrigin (cleanDirs desired)))
    (desiredIDsOf (env.sortByOrigin (cleanDirs desired))) (cleanDirs current)).reuse
  have hperm := mountOrder_perm_of_neededChanges hdes hout
  have hDp := env.sortByOrigin_perm (cleanDirs desired)
  refine ⟨fun e he => ?_, fun d hd => ?_⟩
  · have he' := hperm.subset (mount_mem_changes.mp he)
    exact hDp.subset (List.mem_filter.mp he').1
  · -- the keeps on the mount point and type of `d` are there exactly where `d` is reused
    have hkeep : ∀ e, ⟨.keep, e⟩ ∈ (cleanDirs current).reverse.map (unmountChange R) ++
        out.map (fun e => ⟨.mount, e⟩) → mountEntryId e = mountEntryId d → reused R d = true :=
      fun e he hed => (reused_eq_of_id_eq hed).symm.trans (keep_mem_changes.mp he).2
    cases hrd : reused R d with
    | false =>
      have hdL : d ∈ (env.sortByOrigin (cleanDirs desired)).filter fun e => !reused R e :=
        List.mem_filter.mpr ⟨hDp.mem_iff.mpr hd, by simp [hrd]⟩
      refine .inl ⟨?_, fun e he hed => by simp [hkeep e he hed] at hrd⟩
      have hnodup := (hperm.nodup_iff).mpr
        ((List.filter_sublist.map _).nodup (((hDp.map _).nodup_iff).mpr hdes) |>.of_map _)
      rw [List.count_append, List.count_eq_zero_of_not_mem (fun hm => ?_), zero_add,
        List.count_map_of_injective _ _ (fun a b hab => (Change.mk.inj hab).2)]
      · exact List.count_eq_one_of_mem hnodup (hperm.mem_iff.mpr hdL)
      · obtain ⟨x, -, hx⟩ := List.mem_map.mp hm
        exact unmountChange_ne_mount _ x d hx
    | true =>
      refine .inr ⟨fun hm => ?_, ?_⟩
      · have := hperm.subset (mount_mem_changes.mp hm)
        simp [hrd] at this
      · obtain ⟨x, hx, hxd, -⟩ := reuseLoop_sound env (cleanDirs current) hrd
        exact ⟨x, keep_mem_changes.mpr ⟨hx, (reused_eq_of_id_eq hxd).trans hrd⟩, hxd⟩

/-- A run on at most twelve entries, where `sort.Sort` is an insertion sort and so keeps equal
entries in their order, with the given directory probe and every other target present. -/
def insertionSortEnv (isDirectory : List Char → Bool) : Env where
  isDirectory := isDirectory
  fileExists _ := true
  isSymlink _ := true
  sortByOvername := List.insertionSort fun a b => !byOvernameAndMountPointLess b a
  sortByOrigin := List.insertionSort fun a b => !byOriginAndMountPointLess b a
  rangeOrder l := l
  sortByOvername_perm := List.perm_insertionSort _
  sortByOrigin_perm := List.perm_insertionSort _
  rangeOrder_perm l := List.Perm.refl l

/-- A content mount, kept from one run to the next. -/
def contentMount : MountEntry :=
  ⟨"/snap/data/1/lib".toList, "/snap/app/1/lib".toList, "none".toList,
    ["bind".toList, "ro".toList], 0, 0⟩

/-- A layout the snap no longer has. -/
def oldLayout : MountEntry :=
  ⟨"tmpfs".toList, "/usr/share/old".toList, "tmpfs".toList, ["x-snapd.origin=layout".toList], 0, 0⟩

/-- A new layout, written with a trailing slash. -/
def newLayout : MountEntry :=
  ⟨"/snap/app/1/usr/share/new".toList, "/usr/share/new/".toList, "none".toList,
    ["rbind".toList, "rw".toList, "x-snapd.origin=layout".toList], 0, 0⟩

/-- The changes of the run that replaces the old layout by the new one, where
`/usr/share/new` does not exist yet: the old layout is detached, the content mount kept and the
new layout mounted. -/
def layoutSwapChanges : List Change :=
  [⟨.unmount, { oldLayout with options := oldLayout.options ++ ["x-snapd.detach".toList] }⟩,
    ⟨.keep, contentMount⟩,
    ⟨.mount, { newLayout with dir := "/usr/share/new".toList }⟩]

theorem layout_swap_accounts_for_desired :
    (∀ e, ⟨.mount, e⟩ ∈ layoutSwapChanges → e ∈ cleanDirs [contentMount, newLayout]) ∧
      ∀ d ∈ cleanDirs [contentMount, newLayout],
        (layoutSwapChanges.count ⟨.mount, d⟩ = 1 ∧
            ∀ e, ⟨.keep, e⟩ ∈ layoutSwapChanges → mountEntryId e ≠ mountEntryId d) ∨
          (⟨.mount, d⟩ ∉ layoutSwapChanges ∧
            ∃ e, ⟨.keep, e⟩ ∈ layoutSwapChanges ∧ mountEntryId e = mountEntryId d) :=
  neededChanges_accounts_for_desired (insertionSortEnv fun p => p ≠ "/usr/share/new".toList)
    [contentMount, oldLayout] [contentMount, newLayout] layoutSwapChanges (by decide) (by decide)

end Snapd.UpdateNs
