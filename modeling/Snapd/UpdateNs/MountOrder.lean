import Snapd.UpdateNs.Changes

/-! The order of the mounts in `neededChanges`: whatever the probes of the file system answer,
and whichever orders the sorts and the `range` loops take, the entries mounted are the desired
entries that are not reused, each once, when these are on distinct mount points. The ordering
adds only entries it was given, marks the mount point of each entry it adds, and files each
entry it does not add at once under a key that it visits later. -/

namespace Snapd.UpdateNs

open Osutil GoPath

namespace AddState

/-- The entries added so far, in either list. -/
def entries (st : AddState) : List MountEntry :=
  st.newDesiredEntries ++ st.newIndependentDesiredEntries

/-- Whether `addedDesiredEntries` marks a mount point. -/
def marked (st : AddState) (k : List Char) : Bool :=
  (AssocList.find st.addedDesiredEntries k).getD false

/-- The invariant of the ordering of the entries `L`: it adds entries of `L` only, each on a
mount point of its own, and it marks exactly their mount points. -/
structure Inv (L : List MountEntry) (st : AddState) : Prop where
  sound : ∀ e ∈ st.entries, e ∈ L
  marked_iff : ∀ k, st.marked k = true ↔ k ∈ st.entries.map MountEntry.dir
  nodup : (st.entries.map MountEntry.dir).Nodup

theorem inv_empty (L : List MountEntry) : Inv L ⟨[], [], []⟩ where
  sound _ h := by simp [entries] at h
  marked_iff _ := by simp [entries, marked]
  nodup := List.nodup_nil

end AddState

section AddEntry

variable {L : List MountEntry} {st : AddState} {d e : MountEntry}

theorem addEntry_of_marked (b : Bool) (h : st.marked d.dir = true) : addEntry b st d = st := by
  simp only [addEntry, AddState.marked] at h ⊢
  rw [if_pos h]

theorem addEntry_of_not_marked (b : Bool) (h : st.marked d.dir = false) :
    (addEntry b st d).entries.Perm (st.entries ++ [d]) ∧
      (addEntry b st d).addedDesiredEntries =
        AssocList.insert st.addedDesiredEntries d.dir true := by
  simp only [addEntry, AddState.marked] at h ⊢
  rw [if_neg (by simp [h])]
  cases b with
  | true => simp [AddState.entries]
  | false =>
    -- the entry goes to the end of the first list, before the independent ones
    simp only [Bool.false_eq_true, if_false, AddState.entries, and_true, List.append_assoc]
    exact List.Perm.append_left _ List.perm_append_comm

theorem AddState.Inv.addEntry (b : Bool) (h : st.Inv L) (hd : d ∈ L) : (addEntry b st d).Inv L := by
  cases hm : st.marked d.dir with
  | true => rwa [addEntry_of_marked b hm]
  | false =>
    obtain ⟨hp, ha⟩ := addEntry_of_not_marked b hm
    have hfresh : d.dir ∉ st.entries.map MountEntry.dir := fun hk => by
      simp [(h.marked_iff _).mpr hk] at hm
    refine ⟨fun e he => ?_, fun k => ?_, ?_⟩
    · rcases List.mem_append.mp (hp.subset he) with he | he
      · exact h.sound e he
      · rw [List.mem_singleton.mp he]
        exact hd
    · simp only [AddState.marked, ha, AssocList.find_insert, (hp.map _).mem_iff]
      by_cases hk : d.dir = k
      · simp [hk]
      · have := h.marked_iff k
        simp only [AddState.marked] at this
        simp [hk, this, Ne.symm hk]
    · rw [(hp.map _).nodup_iff, List.map_append, List.nodup_append]
      refine ⟨h.nodup, List.nodup_singleton _, fun a ha b hb hab => hfresh ?_⟩
      rwa [hab, List.mem_singleton.mp hb] at ha

theorem mem_entries_addEntry_of_mem (b : Bool) (he : e ∈ st.entries) :
    e ∈ (addEntry b st d).entries := by
  cases hm : st.marked d.dir with
  | true => rwa [addEntry_of_marked b hm]
  | false => exact (addEntry_of_not_marked b hm).1.mem_iff.mpr (List.mem_append_left _ he)

/-- An entry of `L`, whose entries are on distinct mount points, is among the entries once
`addEntry` has seen it: a marked mount point is that of an entry of `L` added before, which can
only be the entry itself. -/
theorem mem_entries_addEntry (b : Bool) (h : st.Inv L) (hL : (L.map MountEntry.dir).Nodup)
    (hd : d ∈ L) : d ∈ (addEntry b st d).entries := by
  cases hm : st.marked d.dir with
  | true =>
    rw [addEntry_of_marked b hm]
    obtain ⟨e, he, hed⟩ := List.mem_map.mp ((h.marked_iff _).mp hm)
    rwa [← List.inj_on_of_nodup_map hL (h.sound e he) hd hed]
  | false => exact (addEntry_of_not_marked b hm).1.mem_iff.mpr (by simp)

/-- A run of `addEntry` over entries of `L` keeps the invariant and the entries added before,
and adds every entry it runs over. -/
theorem foldl_addEntry (b : Bool) (hL : (L.map MountEntry.dir).Nodup) {l : List MountEntry}
    (hl : ∀ d ∈ l, d ∈ L) (h : st.Inv L) :
    (l.foldl (addEntry b) st).Inv L ∧ (∀ e ∈ st.entries, e ∈ (l.foldl (addEntry b) st).entries) ∧
      ∀ d ∈ l, d ∈ (l.foldl (addEntry b) st).entries := by
  have := Run.foldl_invariant (addEntry b)
    (fun s H => s.Inv L ∧ (∀ e ∈ st.entries, e ∈ s.entries) ∧ ∀ d ∈ H, d ∈ s.entries) l
    (fun s H a ha ⟨hs, hmono, hH⟩ => ⟨hs.addEntry b (hl a ha),
      fun e he => mem_entries_addEntry_of_mem b (hmono e he), fun d hd => by
        rcases List.mem_append.mp hd with hd | hd
        · exact mem_entries_addEntry_of_mem b (hH d hd)
        · rw [List.mem_singleton.mp hd]
          exact mem_entries_addEntry b hs hL (hl a ha)⟩)
    st [] ⟨h, fun _ he => he, by simp⟩
  simpa using this

end AddEntry

section Loops

variable {L : List MountEntry}

/-- What the ordering holds after filing: the state of the additions, and the entries filed
by key. -/
abbrev Filing := AddState × List (List Char × List MountEntry)

/-- The entries filed under a key. -/
def filed (m : List (List Char × List MountEntry)) (k : List Char) : List MountEntry :=
  (AssocList.find m k).getD []

theorem filed_appendAt (m : List (List Char × List MountEntry)) (k k₂ : List Char)
    (x : MountEntry) :
    filed (AssocList.appendAt m k x) k₂ = if k = k₂ then filed m k ++ [x] else filed m k₂ := by
  simp only [filed, AssocList.find_appendAt]
  split <;> rfl

theorem mem_keys_of_mem_filed {m : List (List Char × List MountEntry)} {k : List Char}
    {x : MountEntry} (h : x ∈ filed m k) : k ∈ m.map Prod.fst := by
  rw [← AssocList.isSome_find_iff]
  cases hk : AssocList.find m k with
  | none => simp [filed, hk] at h
  | some _ => rfl

/-- The filing of the ordering of `L` holds only entries of `L`, and its state keeps the
invariant. -/
structure FilingInv (L : List MountEntry) (acc : Filing) : Prop where
  inv : acc.1.Inv L
  filed_sound : ∀ k, ∀ e ∈ filed acc.2 k, e ∈ L

/-- An entry is taken care of: added, or filed under some key. -/
def Covered (acc : Filing) (d : MountEntry) : Prop :=
  d ∈ acc.1.entries ∨ ∃ k, d ∈ filed acc.2 k

theorem FilingInv.addEntry {acc : Filing} (h : FilingInv L acc) (b : Bool) {d : MountEntry}
    (hd : d ∈ L) : FilingInv L (addEntry b acc.1 d, acc.2) :=
  ⟨h.inv.addEntry b hd, h.filed_sound⟩

theorem FilingInv.appendAt {acc : Filing} (h : FilingInv L acc) (k : List Char) {d : MountEntry}
    (hd : d ∈ L) : FilingInv L (acc.1, AssocList.appendAt acc.2 k d) := by
  refine ⟨h.inv, fun k₂ e he => ?_⟩
  rw [filed_appendAt] at he
  split at he
  · rcases List.mem_append.mp he with he | he
    · exact h.filed_sound k e he
    · rw [List.mem_singleton.mp he]
      exact hd
  · exact h.filed_sound k₂ e he

theorem foldl_fileEntry (L : List MountEntry) :
    FilingInv L (fileEntries L) ∧ ∀ d ∈ L, d ∈ filed (fileEntries L).2 (dir d.dir) := by
  have := Run.foldl_invariant fileEntry
    (fun acc H => FilingInv L acc ∧ ∀ d ∈ H, d ∈ filed acc.2 (dir d.dir)) L
    (fun acc H a ha ⟨hacc, hH⟩ => by
      have hacc' : FilingInv L ((fileEntry acc a).1, acc.2) := by
        unfold fileEntry
        split
        · exact hacc.addEntry true ha
        · exact hacc
      refine ⟨hacc'.appendAt _ ha, fun d hd => ?_⟩
      simp only [fileEntry, filed_appendAt]
      rcases List.mem_append.mp hd with hd | hd
      · split
        · rename_i hk
          rw [hk]
          exact List.mem_append_left _ (hH d hd)
        · exact hH d hd
      · rw [List.mem_singleton.mp hd]
        simp)
    (⟨[], [], []⟩, []) [] ⟨⟨AddState.inv_empty L, fun _ _ h => by simp [filed] at h⟩, by simp⟩
  simpa [fileEntries] using this

/-- What one entry of the `range` loop can do: add the entry as independent, or file it under
a mimic directory. -/
theorem mimicEntryStep_cases {env : Env} {parentTargetDir : List Char} {acc acc' : Filing}
    {entry : MountEntry} (h : mimicEntryStep env parentTargetDir acc entry = some acc') :
    acc' = (addIndependentDesiredEntry acc.1 entry, acc.2) ∨
      ∃ m, acc' = (acc.1, AssocList.appendAt acc.2 m entry) := by
  unfold mimicEntryStep at h
  split at h
  · exact .inl (Option.some.inj h).symm
  · obtain ⟨m, -, hm⟩ := Option.map_eq_some_iff.mp h
    exact .inr ⟨m, hm.symm⟩

theorem covered_of_mimicEntryStep {env : Env} {parentTargetDir : List Char} {acc acc' : Filing}
    {entry d : MountEntry} (h : mimicEntryStep env parentTargetDir acc entry = some acc')
    (hd : Covered acc d) : Covered acc' d := by
  rcases mimicEntryStep_cases h with rfl | ⟨m, rfl⟩
  · rcases hd with hd | hd
    · exact .inl (mem_entries_addEntry_of_mem true hd)
    · exact .inr hd
  · rcases hd with hd | ⟨k, hk⟩
    · exact .inl hd
    · refine .inr ⟨k, ?_⟩
      rw [filed_appendAt]
      split
      · rename_i hmk
        rw [hmk]
        exact List.mem_append_left _ hk
      · exact hk

/-- One key of the `range` loop keeps the invariant and what was taken care of, and takes care
of every entry filed under the key. -/
theorem mimicDirStep_spec (env : Env) (hL : (L.map MountEntry.dir).Nodup)
    {affected : List (List Char × List MountEntry)} (haff : ∀ k, ∀ e ∈ filed affected k, e ∈ L)
    {acc acc' : Filing} {k : List Char} (h : mimicDirStep env affected acc k = some acc')
    (hacc : FilingInv L acc) :
    FilingInv L acc' ∧ (∀ d, Covered acc d → Covered acc' d) ∧
      ∀ d ∈ filed affected k, Covered acc' d := by
  have := Run.foldlM_option_invariant (mimicEntryStep env k)
    (fun s H => FilingInv L s ∧ (∀ d, Covered acc d → Covered s d) ∧ ∀ d ∈ H, Covered s d)
    (filed affected k)
    (fun s H a s' ha ⟨hs, hmono, hH⟩ hstep => by
      have haL : a ∈ L := haff k a ha
      refine ⟨?_, fun d hd => covered_of_mimicEntryStep hstep (hmono d hd), fun d hd => ?_⟩
      · rcases mimicEntryStep_cases hstep with rfl | ⟨m, rfl⟩
        · exact hs.addEntry true haL
        · exact hs.appendAt m haL
      · rcases List.mem_append.mp hd with hd | hd
        · exact covered_of_mimicEntryStep hstep (hH d hd)
        · rw [List.mem_singleton.mp hd]
          rcases mimicEntryStep_cases hstep with rfl | ⟨m, rfl⟩
          · exact .inl (mem_entries_addEntry true hs.inv hL haL)
          · exact .inr ⟨m, by simp [filed_appendAt]⟩)
    acc acc' [] ⟨hacc, fun _ hd => hd, by simp⟩ h
  simpa using this

theorem foldlM_mimicDirStep (env : Env) (hL : (L.map MountEntry.dir).Nodup)
    {affected : List (List Char × List MountEntry)} (haff : ∀ k, ∀ e ∈ filed affected k, e ∈ L)
    {keys : List (List Char)} {acc acc' : Filing}
    (h : keys.foldlM (mimicDirStep env affected) acc = some acc') (hacc : FilingInv L acc) :
    FilingInv L acc' ∧ ∀ k ∈ keys, ∀ d ∈ filed affected k, Covered acc' d := by
  have := Run.foldlM_option_invariant (mimicDirStep env affected)
    (fun s H => FilingInv L s ∧ ∀ k ∈ H, ∀ d ∈ filed affected k, Covered s d) keys
    (fun s H a s' _ ⟨hs, hH⟩ hstep => by
      obtain ⟨hs', hmono, ha⟩ := mimicDirStep_spec env hL haff hstep hs
      refine ⟨hs', fun k hk d hd => ?_⟩
      rcases List.mem_append.mp hk with hk | hk
      · exact hmono d (hH k hk d hd)
      · rw [List.mem_singleton.mp hk] at hd
        exact ha d hd)
    acc acc' [] ⟨hacc, by simp⟩ h
  simpa using this

theorem addMimicDirs_spec (env : Env) (hL : (L.map MountEntry.dir).Nodup) {acc : Filing}
    (hacc : FilingInv L acc) :
    (addMimicDirs env acc.1 acc.2).Inv L ∧ ∀ d, Covered acc d → d ∈ (addMimicDirs env acc.1 acc.2).entries := by
  have hmimic : ∀ m, ∀ d ∈ env.sortByOrigin (filed acc.2 m), d ∈ L := fun m d hd =>
    hacc.filed_sound m d ((env.sortByOrigin_perm _).subset hd)
  have := Run.foldl_invariant (addMimicDir env acc.2)
    (fun s H => s.Inv L ∧ (∀ e ∈ acc.1.entries, e ∈ s.entries) ∧
      ∀ m ∈ H, ∀ d ∈ filed acc.2 m, d ∈ s.entries)
    (Snap.sortStrings (acc.2.map Prod.fst))
    (fun s H m _ ⟨hs, hmono, hH⟩ => by
      obtain ⟨hs', hmono', hall⟩ := foldl_addEntry false hL (hmimic m) hs
      refine ⟨hs', fun e he => hmono' e (hmono e he), fun m' hm' d hd => ?_⟩
      rcases List.mem_append.mp hm' with hm' | hm'
      · exact hmono' d (hH m' hm' d hd)
      · rw [List.mem_singleton.mp hm'] at hd
        exact hall d ((env.sortByOrigin_perm _).mem_iff.mpr hd))
    acc.1 [] ⟨hacc.inv, fun _ he => he, by simp⟩
  simp only [List.nil_append] at this
  obtain ⟨hinv, hmono, hall⟩ := this
  refine ⟨hinv, fun d hd => ?_⟩
  rcases hd with hd | ⟨m, hm⟩
  · exact hmono d hd
  · exact hall m ((Snap.sortStrings_perm _).mem_iff.mpr (mem_keys_of_mem_filed hm)) d hm

end Loops

/-- Where the loops return, the state they leave has added every entry, and entries of `L`
only, each once. -/
theorem mountOrder_state (env : Env) {L : List MountEntry} (hL : (L.map MountEntry.dir).Nodup)
    {st : AddState} (h : addAffected env (fileEntries L) = some st) :
    st.Inv L ∧ ∀ d ∈ L, d ∈ st.entries := by
  obtain ⟨hfiling, hfiled⟩ := foldl_fileEntry L
  unfold addAffected at h
  split at h
  · obtain ⟨acc, hacc, rfl⟩ := Option.map_eq_some_iff.mp h
    have hstart : FilingInv L ((fileEntries L).1, []) :=
      ⟨hfiling.inv, fun _ _ h => by simp [filed] at h⟩
    obtain ⟨hacc', hcov⟩ := foldlM_mimicDirStep env hL hfiling.filed_sound hacc hstart
    obtain ⟨hinv, hadded⟩ := addMimicDirs_spec env hL hacc'
    refine ⟨hinv, fun d hd => hadded d (hcov _ ?_ d (hfiled d hd))⟩
    exact (env.rangeOrder_perm _).mem_iff.mpr (mem_keys_of_mem_filed (hfiled d hd))
  · -- nothing was filed, so there was nothing to order
    cases h
    rename_i hnil
    refine ⟨hfiling.inv, fun d hd => ?_⟩
    have := hfiled d hd
    simp [not_not.mp hnil, filed] at this

/-- The mounts that `neededChanges` orders are the entries it is given, each once, when these
are on distinct mount points: whatever the file system probes answer, and in whichever order the
sorts leave equal entries and the `range` loops visit the keys. -/
theorem mountOrder_perm (env : Env) {L out : List MountEntry} (hL : (L.map MountEntry.dir).Nodup)
    (h : mountOrder env L = some out) : out.Perm L := by
  obtain ⟨st, hst, rfl⟩ := Option.map_eq_some_iff.mp h
  obtain ⟨hinv, hall⟩ := mountOrder_state env hL hst
  have hout : (env.sortByOrigin st.newIndependentDesiredEntries ++ st.newDesiredEntries).Perm
      st.entries :=
    ((env.sortByOrigin_perm _).append_right _).trans List.perm_append_comm
  refine hout.trans ((List.perm_ext_iff_of_nodup (hinv.nodup.of_map _) (hL.of_map _)).mpr
    fun e => ⟨hinv.sound e, hall e⟩)

end Snapd.UpdateNs
