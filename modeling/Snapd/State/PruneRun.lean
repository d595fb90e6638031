import Snapd.State.Prune

/-! What a run of `State.Prune` does. Over the changes without a ready time it deletes some that
have no tasks and aborts the unready lanes of others; where tasks wait only for tasks of their own
change, such an abort touches the tasks and the ready state of its own change only, so the changes
after it are read as they were. Over the ready changes it deletes the oldest, as many as the count
asks. From some fuel on `Prune` has one result, which is not running out of fuel: a state, or a
panic in an abort. -/

namespace Snapd.State

variable {τ χ : Type} [DecidableEq τ] [DecidableEq χ]

theorem StateRecord.abortUnreadyLanes_eq_ok {s s' : StateRecord τ χ} {fuel : Nat} {now : Int}
    {c : χ} (h : s.abortUnreadyLanes fuel now c = .ok s') :
    ∃ st, changeAbortLanes fuel s.changes (s.abortState now) (s.changes c) (s.unreadyLanes c) =
        .ok st ∧ s' = s.withAbort st := by
  unfold StateRecord.abortUnreadyLanes at h
  cases ha : changeAbortLanes fuel s.changes (s.abortState now) (s.changes c) (s.unreadyLanes c) with
  | error e => simp [ha, Except.map] at h
  | ok st =>
    simp only [ha, Except.map, Except.ok.injEq] at h
    exact ⟨st, rfl, h.symm⟩

/-- From some fuel on, `AbortUnreadyLanes` has one result, which is not running out of fuel,
where the change's tasks lie in a set `U` closed under `haltTasks`. -/
theorem StateRecord.abortUnreadyLanes_fuel (s : StateRecord τ χ) (now : Int) (c : χ) {U : List τ}
    (hU : (s.changes c).taskIDs ⊆ U) (hclosed : ∀ u ∈ U, ∀ h ∈ (s.tasks u).haltTasks, h ∈ U) :
    ∃ N res, (∀ fuel ≥ N, s.abortUnreadyLanes fuel now c = res) ∧ res ≠ .error .outOfFuel := by
  obtain ⟨N, resLanes, _resAbort, hafter, hne, -⟩ := abort_terminates_with_closed_outcome s.changes
    (s.abortState now) (s.changes c) (s.unreadyLanes c) U hU hclosed
  refine ⟨N, resLanes.map s.withAbort, fun fuel hfuel => ?_, ?_⟩
  · rw [StateRecord.abortUnreadyLanes, (hafter fuel hfuel).1]
  · cases resLanes with
    | error e =>
      intro h
      simp only [Except.map, Except.error.injEq] at h
      exact hne (by rw [h])
    | ok st => nofun

section Steps

variable (fuel : Nat) (now startOfOperation pruneLimit abortLimit maxReadyChanges : Int)
  (pending : StateRecord τ χ → χ → Bool) {acc acc' : PruneAcc τ χ} {c : χ}

/-- A turn on a change with no ready time by then deletes it, without tasks; leaves it; or
aborts its unready lanes, the change being spawned before `abortLimit`. -/
theorem pruneChange_of_none (h : acc.state.readyTime c = none)
    (hstep : pruneChange fuel now startOfOperation pruneLimit abortLimit maxReadyChanges pending
      acc c = .ok acc') :
    acc'.readyChangesCount = acc.readyChangesCount ∧
      (acc'.state = acc.state.deleteChange c ∧ (acc.state.changes c).taskIDs = [] ∨
        acc' = acc ∨
        max (acc.state.spawnTime c) startOfOperation < abortLimit ∧
          ∃ st, changeAbortLanes fuel acc.state.changes (acc.state.abortState now)
              (acc.state.changes c) (acc.state.unreadyLanes c) = .ok st ∧
            acc'.state = acc.state.withAbort st) := by
  unfold pruneChange at hstep
  simp only [h] at hstep
  rw [← max_def_lt] at hstep
  split_ifs at hstep with hprune habort hpending
  · cases hstep
    exact ⟨rfl, .inl ⟨rfl, hprune.2⟩⟩
  · cases hstep
    exact ⟨rfl, .inr (.inl rfl)⟩
  · split at hstep
    · next s' hs' =>
      cases hstep
      obtain ⟨st, ha, rfl⟩ := StateRecord.abortUnreadyLanes_eq_ok hs'
      exact ⟨rfl, .inr (.inr ⟨habort, st, ha, rfl⟩)⟩
    · cases hstep
  · cases hstep
    exact ⟨rfl, .inr (.inl rfl)⟩

theorem pruneChange_remove {t : Int} (h : acc.state.readyTime c = some t)
    (hcond : t < pruneLimit ∨ acc.readyChangesCount > maxReadyChanges)
    (hpresent : ∀ u ∈ (acc.state.changes c).taskIDs, u ∈ acc.state.taskKeys) :
    pruneChange fuel now startOfOperation pruneLimit abortLimit maxReadyChanges pending acc c =
      .ok ⟨(acc.state.deleteTasks (acc.state.changes c).taskIDs).deleteChange c,
        acc.readyChangesCount - 1⟩ := by
  have hall : ((acc.state.changes c).taskIDs.all fun u => decide (u ∈ acc.state.taskKeys)) =
      true := by
    simpa [List.all_eq_true] using hpresent
  unfold pruneChange
  simp only [h, hcond, if_true, hall]

theorem pruneChange_keep {t : Int} (h : acc.state.readyTime c = some t) (hnew : pruneLimit ≤ t)
    (hcount : acc.readyChangesCount ≤ maxReadyChanges) :
    pruneChange fuel now startOfOperation pruneLimit abortLimit maxReadyChanges pending acc c =
      .ok acc := by
  unfold pruneChange
  simp only [h]
  rw [if_neg (by omega)]

/-- A turn keeps the changes' records and changes the tasks only in their statuses. -/
theorem pruneChange_changes_tasks
    (hstep : pruneChange fuel now startOfOperation pruneLimit abortLimit maxReadyChanges pending
      acc c = .ok acc') :
    acc'.state.changes = acc.state.changes ∧ AbortsOnly acc.state.tasks acc'.state.tasks := by
  unfold pruneChange at hstep
  dsimp only at hstep
  rw [← max_def_lt] at hstep
  split at hstep
  · split_ifs at hstep
    · cases hstep
      exact ⟨rfl, .refl _⟩
    · cases hstep
      exact ⟨rfl, .refl _⟩
    · split at hstep
      · next s' hs' =>
        cases hstep
        obtain ⟨st, ha, rfl⟩ := StateRecord.abortUnreadyLanes_eq_ok hs'
        exact ⟨rfl, abortsOnly_changeAbortLanes ha⟩
      · cases hstep
    · cases hstep
      exact ⟨rfl, .refl _⟩
  · split_ifs at hstep
    · cases hstep
      exact ⟨rfl, .refl _⟩
    · cases hstep
      exact ⟨rfl, .refl _⟩

theorem pruneChange_congr_fuel (fuel' : Nat)
    (h : acc.state.abortUnreadyLanes fuel now c = acc.state.abortUnreadyLanes fuel' now c) :
    pruneChange fuel now startOfOperation pruneLimit abortLimit maxReadyChanges pending acc c =
      pruneChange fuel' now startOfOperation pruneLimit abortLimit maxReadyChanges pending acc c := by
  simp only [pruneChange, h]

/-- A turn runs out of fuel only where the abort it makes does. -/
theorem pruneChange_ne_outOfFuel (h : acc.state.abortUnreadyLanes fuel now c ≠ .error .outOfFuel) :
    pruneChange fuel now startOfOperation pruneLimit abortLimit maxReadyChanges pending acc c ≠
      .error (.abort .outOfFuel) := by
  unfold pruneChange
  dsimp only
  rw [← max_def_lt]
  split
  · split_ifs
    · nofun
    · nofun
    · split
      · nofun
      · next e he =>
        intro hfault
        cases hfault
        exact h he
    · nofun
  · split_ifs <;> nofun

theorem pruneChange_fuel (acc : PruneAcc τ χ) (c : χ) {U : List τ}
    (hU : (acc.state.changes c).taskIDs ⊆ U)
    (hclosed : ∀ u ∈ U, ∀ h ∈ (acc.state.tasks u).haltTasks, h ∈ U) :
    ∃ N res, (∀ fuel ≥ N,
        pruneChange fuel now startOfOperation pruneLimit abortLimit maxReadyChanges pending acc c =
          res) ∧ res ≠ .error (.abort .outOfFuel) := by
  obtain ⟨N, res, hres, hne⟩ := acc.state.abortUnreadyLanes_fuel now c hU hclosed
  refine ⟨N, _, fun fuel hfuel => pruneChange_congr_fuel fuel now startOfOperation pruneLimit
    abortLimit maxReadyChanges pending N ((hres fuel hfuel).trans (hres N le_rfl).symm),
    pruneChange_ne_outOfFuel N now startOfOperation pruneLimit abortLimit maxReadyChanges pending
      (by rw [hres N le_rfl]; exact hne)⟩

/-- From some fuel on, the loop has one result, which is not running out of fuel: by induction
on the changes, each turn's result is fixed from some fuel on, and keeps the set `U` closed
under `haltTasks`. -/
theorem pruneChanges_fuel (U : List τ) (l : List χ) : ∀ acc : PruneAcc τ χ,
    (∀ c ∈ l, (acc.state.changes c).taskIDs ⊆ U) →
    (∀ u ∈ U, ∀ h ∈ (acc.state.tasks u).haltTasks, h ∈ U) →
    ∃ N res, (∀ fuel ≥ N,
        pruneChanges fuel now startOfOperation pruneLimit abortLimit maxReadyChanges pending acc l =
          res) ∧ res ≠ .error (.abort .outOfFuel) := by
  induction l with
  | nil => exact fun acc _ _ => ⟨0, .ok acc, fun _ _ => rfl, nofun⟩
  | cons c l ih =>
    intro acc hU hclosed
    obtain ⟨N₁, res₁, hres₁, hne₁⟩ := pruneChange_fuel now startOfOperation pruneLimit abortLimit
      maxReadyChanges pending acc c (hU c List.mem_cons_self) hclosed
    cases res₁ with
    | error e =>
      refine ⟨N₁, .error e, fun fuel hfuel => ?_, hne₁⟩
      rw [pruneChanges, hres₁ fuel hfuel]
      rfl
    | ok acc₁ =>
      obtain ⟨hchanges, honly⟩ := pruneChange_changes_tasks N₁ now startOfOperation pruneLimit
        abortLimit maxReadyChanges pending (hres₁ N₁ le_rfl)
      have hU₁ : ∀ c' ∈ l, (acc₁.state.changes c').taskIDs ⊆ U := fun c' hc' => by
        rw [hchanges]
        exact hU c' (List.mem_cons_of_mem _ hc')
      have hclosed₁ : ∀ u ∈ U, ∀ h ∈ (acc₁.state.tasks u).haltTasks, h ∈ U := fun u hu h hh =>
        hclosed u hu h ((honly.change_haltTasks u).2 ▸ hh)
      obtain ⟨N₂, res₂, hres₂, hne₂⟩ := ih acc₁ hU₁ hclosed₁
      refine ⟨max N₁ N₂, res₂, fun fuel hfuel => ?_, hne₂⟩
      rw [pruneChanges, hres₁ fuel (le_of_max_le_left hfuel)]
      exact hres₂ fuel (le_of_max_le_right hfuel)

end Steps

/-- `Prune` on a state whose changes list only tasks of the state, and whose tasks halt only tasks
of the state, has one result from some fuel on, and it is not running out of fuel. -/
theorem prune_fuel (s : StateRecord τ χ) (hs : s.WellFormed)
    (now startOfOperation pruneWait abortWait maxReadyChanges : Int)
    (pending : StateRecord τ χ → χ → Bool) :
    ∃ N res, (∀ fuel ≥ N,
        s.prune fuel now startOfOperation pruneWait abortWait maxReadyChanges pending = res) ∧
      res ≠ .error (.abort .outOfFuel) := by
  obtain ⟨N, res, hres, hne⟩ := pruneChanges_fuel now startOfOperation (now - pruneWait)
    (now - abortWait) maxReadyChanges pending s.taskKeys
    (s.changeKeys.mergeSort (byReadyTime s.readyTime))
    ⟨s, readyChangesCount s.readyTime (s.changeKeys.mergeSort (byReadyTime s.readyTime))⟩
    (fun c hc u hu => hs.present c (List.mem_mergeSort.mp hc) u hu) hs.halts
  refine ⟨N, res.map fun acc => acc.state.pruneUnlinkedTasks (now - pruneWait),
    fun fuel hfuel => ?_, ?_⟩
  · unfold StateRecord.prune
    dsimp only
    rw [hres fuel hfuel]
  · cases res with
    | error e =>
      intro h
      simp only [Except.map, Except.error.injEq] at h
      exact hne (by rw [h])
    | ok acc => nofun

section Unready

variable {s : StateRecord τ χ} {now startOfOperation abortLimit : Int} {V : List χ}
  {acc acc' : PruneAcc τ χ}

/-- What the loop leaves once it has passed the changes `V`, which had no ready time: the count,
the task keys, the changes and their spawn times as they were; a change deleted only from `V` and
only without tasks; the ready time of every other change as it was, and of one in `V` none, or
now for one spawned before `abortLimit`; and the tasks changed only in their statuses. -/
structure UnreadyPassed (s : StateRecord τ χ) (now startOfOperation abortLimit : Int)
    (V : List χ) (acc : PruneAcc τ χ) : Prop where
  count : acc.readyChangesCount = (readyChanges s).length
  taskKeys : acc.state.taskKeys = s.taskKeys
  changes : acc.state.changes = s.changes
  spawnTime : acc.state.spawnTime = s.spawnTime
  sublist : acc.state.changeKeys.Sublist s.changeKeys
  keep : ∀ x ∈ s.changeKeys, (x ∈ V → (s.changes x).taskIDs ≠ []) → x ∈ acc.state.changeKeys
  readyTime_out : ∀ x ∉ V, acc.state.readyTime x = s.readyTime x
  readyTime_in : ∀ x ∈ V, acc.state.readyTime x = none ∨
    acc.state.readyTime x = some now ∧ max (s.spawnTime x) startOfOperation < abortLimit
  tasks : AbortsOnly s.tasks acc.state.tasks

omit [DecidableEq τ] [DecidableEq χ] in
theorem UnreadyPassed.start (s : StateRecord τ χ) (now startOfOperation abortLimit : Int) :
    UnreadyPassed s now startOfOperation abortLimit [] ⟨s, (readyChanges s).length⟩ :=
  ⟨rfl, rfl, rfl, rfl, .refl _, fun _ hx _ => hx, fun _ _ => rfl, fun _ h => absurd h List.not_mem_nil,
    .refl _⟩

omit [DecidableEq τ] [DecidableEq χ] in
theorem UnreadyPassed.readyTime_cons (hinv : UnreadyPassed s now startOfOperation abortLimit V acc)
    {z : χ} (hz : acc.state.readyTime z = none) :
    ∀ x ∈ V ++ [z], acc.state.readyTime x = none ∨
      acc.state.readyTime x = some now ∧ max (s.spawnTime x) startOfOperation < abortLimit := by
  intro x hx
  rcases List.mem_append.mp hx with hx | hx
  · exact hinv.readyTime_in x hx
  · rw [List.mem_singleton.mp hx]
    exact .inl hz

omit [DecidableEq τ] [DecidableEq χ] in
theorem UnreadyPassed.keep_append (hinv : UnreadyPassed s now startOfOperation abortLimit V acc)
    (z : χ) : ∀ x ∈ s.changeKeys, (x ∈ V ++ [z] → (s.changes x).taskIDs ≠ []) →
      x ∈ acc.state.changeKeys :=
  fun x hx hkeep => hinv.keep x hx fun hxV => hkeep (List.mem_append_left _ hxV)

/-- The abort of the unready lanes of a change `z` with no ready time keeps `UnreadyPassed`: it
touches only the tasks of `z`, which wait only within `z`, and the ready state of `z`. -/
theorem UnreadyPassed.withAbort (hs : s.WellFormed) (hw : s.WaitsWithinChange) {fuel : Nat}
    (hinv : UnreadyPassed s now startOfOperation abortLimit V acc) {z : χ} (hz : z ∉ V)
    (hzs : z ∈ s.changeKeys) (hlive : acc.state.readyTime z = none)
    (hspawn : max (acc.state.spawnTime z) startOfOperation < abortLimit) {st : AbortState τ χ}
    (ha : changeAbortLanes fuel acc.state.changes (acc.state.abortState now) (acc.state.changes z)
      (acc.state.unreadyLanes z) = .ok st)
    (hcount : acc'.readyChangesCount = acc.readyChangesCount)
    (hst : acc'.state = acc.state.withAbort st) :
    UnreadyPassed s now startOfOperation abortLimit (V ++ [z]) acc' := by
  have hids : ∀ u ∈ (acc.state.changes z).taskIDs, u ∈ s.taskKeys ∧ (s.tasks u).change = z := by
    intro u hu
    rw [hinv.changes] at hu
    exact ⟨hs.present z hzs u hu, hs.linked z hzs u hu⟩
  have hframe := changeAbortLanes_frame (s.withinChange hs hw z hinv.tasks) hids ha
  have hready := hframe.ready
  refine ⟨hcount.trans hinv.count, by rw [hst]; exact hinv.taskKeys, by rw [hst]; exact hinv.changes,
    by rw [hst]; exact hinv.spawnTime, by rw [hst]; exact hinv.sublist,
    by rw [hst]; exact hinv.keep_append z, fun x hx => ?_, fun x hx => ?_,
    by rw [hst]; exact hinv.tasks.trans hframe.only⟩
  · obtain ⟨hxV, hxz⟩ : x ∉ V ∧ x ≠ z := by simpa [not_or] using hx
    rw [hst, StateRecord.withAbort_readyTime, hready.readyTime_of_ne hxz]
    exact hinv.readyTime_out x hxV
  · rw [hst, StateRecord.withAbort_readyTime]
    rcases List.mem_append.mp hx with hx | hx
    · rw [hready.readyTime_of_ne fun hxz => hz (hxz ▸ hx)]
      exact hinv.readyTime_in x hx
    · rw [List.mem_singleton.mp hx]
      rcases hready.readyTime z with h' | ⟨-, -, h'⟩
      · exact .inl (h'.trans hlive)
      · exact .inr ⟨h', hinv.spawnTime ▸ hspawn⟩

/-- One turn on a change `z` with no ready time keeps `UnreadyPassed`. -/
theorem UnreadyPassed.step (hs : s.WellFormed) (hw : s.WaitsWithinChange) {fuel : Nat}
    {pruneLimit maxReadyChanges : Int} {pending : StateRecord τ χ → χ → Bool}
    (hinv : UnreadyPassed s now startOfOperation abortLimit V acc) {z : χ} (hz : z ∉ V)
    (hzs : z ∈ s.changeKeys) (hnone : s.readyTime z = none)
    (h : pruneChange fuel now startOfOperation pruneLimit abortLimit maxReadyChanges pending acc z =
      .ok acc') :
    UnreadyPassed s now startOfOperation abortLimit (V ++ [z]) acc' := by
  have hlive : acc.state.readyTime z = none := (hinv.readyTime_out z hz).trans hnone
  have hout : ∀ x, x ∉ V ++ [z] → x ∉ V := fun x hx hxV => hx (List.mem_append_left _ hxV)
  obtain ⟨hcount, hcase⟩ := pruneChange_of_none fuel now startOfOperation pruneLimit abortLimit
    maxReadyChanges pending hlive h
  rcases hcase with ⟨hst, hempty⟩ | rfl | ⟨hspawn, st, ha, hst⟩
  · -- `z` is deleted, having no tasks
    rw [hinv.changes] at hempty
    refine ⟨hcount.trans hinv.count, by rw [hst]; exact hinv.taskKeys, by rw [hst]; exact hinv.changes,
      by rw [hst]; exact hinv.spawnTime, by rw [hst]; exact List.filter_sublist.trans hinv.sublist,
      fun x hx hkeep => ?_, fun x hx => ?_, by rw [hst]; exact hinv.readyTime_cons hlive,
      by rw [hst]; exact hinv.tasks⟩
    · rw [hst, StateRecord.mem_deleteChange_changeKeys]
      refine ⟨hinv.keep_append z x hx hkeep, fun hxz => ?_⟩
      subst hxz
      exact hkeep (List.mem_append_right _ (List.mem_singleton_self _)) hempty
    · rw [hst]
      exact hinv.readyTime_out x (hout x hx)
  · exact ⟨hinv.count, hinv.taskKeys, hinv.changes, hinv.spawnTime, hinv.sublist,
      hinv.keep_append z, fun x hx => hinv.readyTime_out x (hout x hx), hinv.readyTime_cons hlive,
      hinv.tasks⟩
  · exact hinv.withAbort hs hw hz hzs hlive hspawn ha hcount hst

/-- The loop over changes without a ready time keeps `UnreadyPassed`, by induction on them. -/
theorem pruneChanges_unready (hs : s.WellFormed) (hw : s.WaitsWithinChange) {fuel : Nat}
    {pruneLimit maxReadyChanges : Int} {pending : StateRecord τ χ → χ → Bool} (Z : List χ)
    (hnd : Z.Nodup) (hZ : ∀ z ∈ Z, z ∈ s.changeKeys ∧ s.readyTime z = none) :
    ∀ (V : List χ) (acc acc' : PruneAcc τ χ), (∀ z ∈ Z, z ∉ V) →
      UnreadyPassed s now startOfOperation abortLimit V acc →
      pruneChanges fuel now startOfOperation pruneLimit abortLimit maxReadyChanges pending acc Z =
        .ok acc' →
      UnreadyPassed s now startOfOperation abortLimit (V ++ Z) acc' := by
  induction Z with
  | nil =>
    intro V acc acc' _ hinv h
    cases h
    rwa [List.append_nil]
  | cons z Z ih =>
    intro V acc acc' hdisj hinv h
    obtain ⟨hzZ, hnd'⟩ := List.nodup_cons.mp hnd
    simp only [pruneChanges] at h
    cases hstep : pruneChange fuel now startOfOperation pruneLimit abortLimit maxReadyChanges
      pending acc z with
    | error e =>
      rw [hstep] at h
      cases h
    | ok acc₁ =>
      rw [hstep] at h
      have hinv₁ := hinv.step hs hw (hdisj z List.mem_cons_self) (hZ z List.mem_cons_self).1
        (hZ z List.mem_cons_self).2 hstep
      have hdisj₁ : ∀ z' ∈ Z, z' ∉ V ++ [z] := by
        intro z' hz' hmem
        rcases List.mem_append.mp hmem with hV | hz
        · exact hdisj z' (List.mem_cons_of_mem _ hz') hV
        · exact hzZ (List.mem_singleton.mp hz ▸ hz')
      have := ih hnd' (fun z' hz' => hZ z' (List.mem_cons_of_mem _ hz')) (V ++ [z]) acc₁ acc'
        hdisj₁ hinv₁ h
      rwa [List.append_assoc, List.singleton_append] at this

end Unready

section Ready

variable (fuel : Nat) (now startOfOperation pruneLimit abortLimit maxReadyChanges : Int)
  (pending : StateRecord τ χ → χ → Bool)

theorem pruneChanges_keep (rs : List χ) (acc : PruneAcc τ χ)
    (hrs : ∀ r ∈ rs, ∃ t, acc.state.readyTime r = some t ∧ pruneLimit ≤ t)
    (hcount : acc.readyChangesCount ≤ maxReadyChanges) :
    pruneChanges fuel now startOfOperation pruneLimit abortLimit maxReadyChanges pending acc rs =
      .ok acc := by
  induction rs with
  | nil => rfl
  | cons r rs ih =>
    obtain ⟨t, hr, hnew⟩ := hrs r List.mem_cons_self
    rw [pruneChanges, pruneChange_keep fuel now startOfOperation pruneLimit abortLimit
      maxReadyChanges pending hr hnew hcount]
    exact ih fun r' hr' => hrs r' (List.mem_cons_of_mem _ hr')

/-- Deleting change `r` with its tasks keeps, for every other change, its tasks in the state,
where each task lists the change it belongs to. -/
theorem StateRecord.linkedTasks_remove {s : StateRecord τ χ} {r : χ} {rs : List χ} (hnew : r ∉ rs)
    (hpres : ∀ r' ∈ r :: rs, ∀ u ∈ (s.changes r').taskIDs, u ∈ s.taskKeys ∧ (s.tasks u).change = r') :
    ∀ r' ∈ rs, ∀ u ∈ (s.changes r').taskIDs,
      u ∈ ((s.deleteTasks (s.changes r).taskIDs).deleteChange r).taskKeys ∧
        (s.tasks u).change = r' := by
  intro r' hr' u hu
  obtain ⟨hkey, hlink⟩ := hpres r' (List.mem_cons_of_mem _ hr') u hu
  refine ⟨?_, hlink⟩
  simp only [StateRecord.deleteChange_taskKeys, StateRecord.mem_deleteTasks_taskKeys]
  refine ⟨hkey, fun hur => hnew ?_⟩
  rw [← (hpres r List.mem_cons_self u hur).2, hlink]
  exact hr'

/-- Over the ready changes, sorted, the loop deletes a first stretch of them with their tasks:
all of them, or as many as leave the count within `maxReadyChanges`. The induction carries that
every change still to come has its tasks in the state, and only it lists them. -/
theorem pruneChanges_ready (rs : List χ) (hnodup : rs.Nodup) : ∀ acc : PruneAcc τ χ,
    (∀ r ∈ rs, (acc.state.readyTime r).isSome) →
    (rs.Pairwise fun a b => byReadyTime acc.state.readyTime a b = true) →
    (∀ r ∈ rs, ∀ u ∈ (acc.state.changes r).taskIDs,
      u ∈ acc.state.taskKeys ∧ (acc.state.tasks u).change = r) →
    ∃ j ≤ rs.length,
      pruneChanges fuel now startOfOperation pruneLimit abortLimit maxReadyChanges pending acc rs =
        .ok ⟨acc.state.removeChanges (rs.take j), acc.readyChangesCount - j⟩ ∧
      (j = rs.length ∨ acc.readyChangesCount - j ≤ maxReadyChanges) := by
  induction rs with
  | nil =>
    intro acc _ _ _
    exact ⟨0, le_rfl, by simp [pruneChanges, StateRecord.removeChanges], .inl rfl⟩
  | cons r rs ih =>
    intro acc hrs hsorted hpres
    obtain ⟨hr, hsorted'⟩ := List.pairwise_cons.mp hsorted
    obtain ⟨hnew, hnodup'⟩ := List.nodup_cons.mp hnodup
    obtain ⟨t, hrt⟩ := Option.isSome_iff_exists.mp (hrs r List.mem_cons_self)
    by_cases hcond : t < pruneLimit ∨ acc.readyChangesCount > maxReadyChanges
    · -- `r` goes with its tasks, which no change still to come lists
      have hstep := pruneChange_remove fuel now startOfOperation pruneLimit abortLimit
        maxReadyChanges pending hrt hcond fun u hu => (hpres r List.mem_cons_self u hu).1
      obtain ⟨j, hj, hrun, hend⟩ := ih hnodup'
        ⟨(acc.state.deleteTasks (acc.state.changes r).taskIDs).deleteChange r,
          acc.readyChangesCount - 1⟩
        (fun r' hr' => hrs r' (List.mem_cons_of_mem _ hr')) hsorted'
        (StateRecord.linkedTasks_remove hnew hpres)
      refine ⟨j + 1, by simp [hj], ?_, ?_⟩
      · rw [pruneChanges, hstep]
        refine hrun.trans ?_
        simp only [List.take_succ_cons, StateRecord.removeChanges, Except.ok.injEq,
          PruneAcc.mk.injEq, true_and]
        push_cast
        omega
      · dsimp only at hend
        rcases hend with hend | hend
        · exact .inl (by simp [hend])
        · right
          push_cast
          omega
    · -- `r` stays, and so does every change after it: none is older, and the count is within
      have hkeep : pruneLimit ≤ t ∧ acc.readyChangesCount ≤ maxReadyChanges := by omega
      have hafter : ∀ r' ∈ rs, ∃ t', acc.state.readyTime r' = some t' ∧ pruneLimit ≤ t' := by
        intro r' h'
        obtain ⟨t', hrt'⟩ := Option.isSome_iff_exists.mp (hrs r' (List.mem_cons_of_mem _ h'))
        exact ⟨t', hrt', hkeep.1.trans (le_of_byReadyTime hrt hrt' (hr r' h'))⟩
      refine ⟨0, Nat.zero_le _, ?_, .inr (by simpa using hkeep.2)⟩
      rw [pruneChanges, pruneChange_keep fuel now startOfOperation pruneLimit abortLimit
        maxReadyChanges pending hrt hkeep.1 hkeep.2]
      exact (pruneChanges_keep fuel now startOfOperation pruneLimit abortLimit maxReadyChanges
        pending rs acc hafter hkeep.2).trans (by simp [StateRecord.removeChanges])

end Ready

section Run

variable {s : StateRecord τ χ} {now startOfOperation abortLimit maxReadyChanges : Int}
  {mid : PruneAcc τ χ} {j : Nat}

/-- What a run of `Prune` did, as `prune_run` finds it: over the changes that had no ready time
it left `mid`; over the ready ones it deleted the first `j`, which are all of them or leave at
most `maxReadyChanges`. -/
structure PruneRun (s : StateRecord τ χ) (now startOfOperation abortLimit maxReadyChanges : Int)
    (mid : PruneAcc τ χ) (j : Nat) : Prop where
  passed : UnreadyPassed s now startOfOperation abortLimit (unreadyChanges s) mid
  le_length : j ≤ (readyChanges s).length
  count : j = (readyChanges s).length ∨ ((readyChanges s).length : Int) - j ≤ maxReadyChanges

omit [DecidableEq τ] [DecidableEq χ] in
theorem UnreadyPassed.readyTime_ready
    (hpassed : UnreadyPassed s now startOfOperation abortLimit (unreadyChanges s) mid) {x : χ}
    (hx : x ∈ readyChanges s) : mid.state.readyTime x = s.readyTime x := by
  refine hpassed.readyTime_out x fun hu => ?_
  have h₁ := (mem_readyChanges.mp hx).2
  rw [(mem_unreadyChanges.mp hu).2] at h₁
  cases h₁

theorem prune_run (hs : s.WellFormed) (hw : s.WaitsWithinChange) {fuel : Nat}
    {pruneWait abortWait : Int} {pending : StateRecord τ χ → χ → Bool} {r : StateRecord τ χ}
    (h : s.prune fuel now startOfOperation pruneWait abortWait maxReadyChanges pending = .ok r) :
    ∃ mid j, PruneRun s now startOfOperation (now - abortWait) maxReadyChanges mid j ∧
      r = (mid.state.removeChanges ((readyChanges s).take j)).pruneUnlinkedTasks
        (now - pruneWait) := by
  rw [prune_eq, pruneChanges_append] at h
  cases h₁ : pruneChanges fuel now startOfOperation (now - pruneWait) (now - abortWait)
    maxReadyChanges pending ⟨s, (readyChanges s).length⟩ (unreadyChanges s) with
  | error e =>
    rw [h₁] at h
    cases h
  | ok mid =>
    have hpassed := pruneChanges_unready hs hw (unreadyChanges s)
      (unreadyChanges_nodup hs.nodup) (fun z hz => mem_unreadyChanges.mp hz) [] _ mid
      (fun _ _ => List.not_mem_nil) (UnreadyPassed.start s now startOfOperation _) h₁
    rw [List.nil_append] at hpassed
    have hsorted : (readyChanges s).Pairwise fun a b => byReadyTime mid.state.readyTime a b = true :=
      (readyChanges_sorted s).imp_of_mem fun ha hb hab => by
        rwa [byReadyTime, hpassed.readyTime_ready ha, hpassed.readyTime_ready hb]
    have hpres : ∀ x ∈ readyChanges s, ∀ u ∈ (mid.state.changes x).taskIDs,
        u ∈ mid.state.taskKeys ∧ (mid.state.tasks u).change = x := by
      intro x hx u hu
      have hxs := (mem_readyChanges.mp hx).1
      rw [hpassed.changes] at hu
      rw [hpassed.taskKeys, (hpassed.tasks.change_haltTasks u).1]
      exact ⟨hs.present x hxs u hu, hs.linked x hxs u hu⟩
    obtain ⟨j, hj, hrun₂, hend⟩ := pruneChanges_ready fuel now startOfOperation (now - pruneWait)
      (now - abortWait) maxReadyChanges pending (readyChanges s) (readyChanges_nodup hs.nodup) mid
      (fun x hx => by rw [hpassed.readyTime_ready hx]; exact (mem_readyChanges.mp hx).2)
      hsorted hpres
    rw [h₁] at h
    simp only [Except.bind, hrun₂, Except.map, Except.ok.injEq] at h
    rw [hpassed.count] at hend
    exact ⟨mid, j, ⟨hpassed, hj, hend⟩, h.symm⟩

section Parts

variable {pruneLimit : Int}

theorem mem_pruned_changeKeys {xs : List χ} {c : χ} :
    c ∈ ((mid.state.removeChanges xs).pruneUnlinkedTasks pruneLimit).changeKeys ↔
      c ∈ mid.state.changeKeys ∧ c ∉ xs := by
  rw [StateRecord.pruneUnlinkedTasks_changeKeys, StateRecord.mem_removeChanges_changeKeys]

theorem PruneRun.mem_drop_of_kept (hrun : PruneRun s now startOfOperation abortLimit maxReadyChanges mid j)
    {c : χ}
    (hc : c ∈ ((mid.state.removeChanges ((readyChanges s).take j)).pruneUnlinkedTasks
      pruneLimit).changeKeys)
    (hready : (s.readyTime c).isSome) : c ∈ (readyChanges s).drop j := by
  obtain ⟨hmid, hnot⟩ := mem_pruned_changeKeys.mp hc
  have hr : c ∈ readyChanges s := mem_readyChanges.mpr ⟨hrun.passed.sublist.subset hmid, hready⟩
  rw [← List.take_append_drop j (readyChanges s), List.mem_append] at hr
  exact hr.resolve_left hnot

theorem PruneRun.mem_take_of_removed
    (hrun : PruneRun s now startOfOperation abortLimit maxReadyChanges mid j) {c : χ}
    (hc : c ∈ s.changeKeys) (hready : (s.readyTime c).isSome)
    (hgone : c ∉ ((mid.state.removeChanges ((readyChanges s).take j)).pruneUnlinkedTasks
      pruneLimit).changeKeys) :
    c ∈ (readyChanges s).take j := by
  -- a change with a ready time is not among the unready ones, so the first pass kept it
  have hmid : c ∈ mid.state.changeKeys := hrun.passed.keep c hc fun hu => by
    rw [(mem_unreadyChanges.mp hu).2] at hready
    cases hready
  by_contra hnot
  exact hgone (mem_pruned_changeKeys.mpr ⟨hmid, hnot⟩)

theorem PruneRun.changeKeys_sublist
    (hrun : PruneRun s now startOfOperation abortLimit maxReadyChanges mid j) :
    ((mid.state.removeChanges ((readyChanges s).take j)).pruneUnlinkedTasks
      pruneLimit).changeKeys.Sublist s.changeKeys :=
  (StateRecord.removeChanges_changeKeys_sublist _).trans hrun.passed.sublist

theorem PruneRun.countP_ready_le
    (hrun : PruneRun s now startOfOperation abortLimit maxReadyChanges mid j) (hs : s.WellFormed) :
    ((((mid.state.removeChanges ((readyChanges s).take j)).pruneUnlinkedTasks
      pruneLimit).changeKeys.countP fun c => (s.readyTime c).isSome : Nat) : Int) ≤
        max maxReadyChanges 0 := by
  have hsub : (((mid.state.removeChanges ((readyChanges s).take j)).pruneUnlinkedTasks
      pruneLimit).changeKeys.filter fun c => (s.readyTime c).isSome) ⊆ (readyChanges s).drop j := by
    intro c hc
    obtain ⟨hkept, hready⟩ := List.mem_filter.mp hc
    exact hrun.mem_drop_of_kept hkept hready
  have hnodup : (((mid.state.removeChanges ((readyChanges s).take j)).pruneUnlinkedTasks
      pruneLimit).changeKeys.filter fun c => (s.readyTime c).isSome).Nodup :=
    (hs.nodup.sublist hrun.changeKeys_sublist).sublist List.filter_sublist
  have hle := hnodup.length_le_of_subset hsub
  rw [List.length_drop] at hle
  rw [List.countP_eq_length_filter]
  rcases hrun.count with h | h <;> omega

/-- A removed change with a ready time became ready no later than every kept change that had
one: the ready changes are sorted, and the removed ones come first. -/
theorem PruneRun.removed_ready_before_kept
    (hrun : PruneRun s now startOfOperation abortLimit maxReadyChanges mid j) {c d : χ}
    (hc : c ∈ s.changeKeys)
    (hgone : c ∉ ((mid.state.removeChanges ((readyChanges s).take j)).pruneUnlinkedTasks
      pruneLimit).changeKeys)
    (hd : d ∈ ((mid.state.removeChanges ((readyChanges s).take j)).pruneUnlinkedTasks
      pruneLimit).changeKeys)
    {t u : Int} (ht : s.readyTime c = some t) (hu : s.readyTime d = some u) : t ≤ u := by
  have htake := hrun.mem_take_of_removed hc (by simp [ht]) hgone
  have hdrop := hrun.mem_drop_of_kept hd (by simp [hu])
  have hsorted := readyChanges_sorted s
  rw [← List.take_append_drop j (readyChanges s), List.pairwise_append] at hsorted
  exact le_of_byReadyTime ht hu (hsorted.2.2 c htake d hdrop)

/-- A kept change that had no ready time and has one now got it from the abort of its unready
lanes, at `now`. -/
theorem PruneRun.marked_at_now
    (hrun : PruneRun s now startOfOperation abortLimit maxReadyChanges mid j) {c : χ}
    (hc : c ∈ ((mid.state.removeChanges ((readyChanges s).take j)).pruneUnlinkedTasks
      pruneLimit).changeKeys)
    (hnone : s.readyTime c = none) (hsome : mid.state.readyTime c ≠ none) :
    mid.state.readyTime c = some now ∧ max (s.spawnTime c) startOfOperation < abortLimit := by
  have hu : c ∈ unreadyChanges s :=
    mem_unreadyChanges.mpr ⟨hrun.changeKeys_sublist.subset hc, hnone⟩
  exact (hrun.passed.readyTime_in c hu).resolve_left hsome

theorem PruneRun.unready_kept (hrun : PruneRun s now startOfOperation abortLimit maxReadyChanges mid j)
    {c : χ} (hc : c ∈ s.changeKeys) (hnone : s.readyTime c = none)
    (htasks : (s.changes c).taskIDs ≠ []) :
    c ∈ ((mid.state.removeChanges ((readyChanges s).take j)).pruneUnlinkedTasks
      pruneLimit).changeKeys := by
  refine mem_pruned_changeKeys.mpr ⟨hrun.passed.keep c hc fun _ => htasks, fun htake => ?_⟩
  -- the first `j` have a ready time, and `c` has none
  have h₁ := (mem_readyChanges.mp (List.mem_of_mem_take htake)).2
  rw [hnone] at h₁
  cases h₁

/-- The tasks of a removed change are gone: a ready one went with its tasks, and one that had no
ready time is removed only without tasks. -/
theorem PruneRun.removed_tasks_gone
    (hrun : PruneRun s now startOfOperation abortLimit maxReadyChanges mid j) {c : χ}
    (hc : c ∈ s.changeKeys)
    (hgone : c ∉ ((mid.state.removeChanges ((readyChanges s).take j)).pruneUnlinkedTasks
      pruneLimit).changeKeys)
    {u : τ}
    (hu : u ∈ ((mid.state.removeChanges ((readyChanges s).take j)).pruneUnlinkedTasks
      pruneLimit).taskKeys) :
    u ∉ (s.changes c).taskIDs := by
  cases hready : s.readyTime c with
  | none =>
    by_cases htasks : (s.changes c).taskIDs = []
    · simp [htasks]
    · exact absurd (hrun.unready_kept hc hready htasks) hgone
  | some _ =>
    have htake := hrun.mem_take_of_removed hc (by simp [hready]) hgone
    have hgoneTasks := (StateRecord.mem_removeChanges_taskKeys.mp
      (StateRecord.mem_pruneUnlinkedTasks_taskKeys.mp hu).1).2 c htake
    rwa [hrun.passed.changes] at hgoneTasks

/-- A kept change keeps its tasks: a task it lists belongs to it, so no removed change listed it,
and its change is in the state. -/
theorem PruneRun.kept_tasks_stay
    (hrun : PruneRun s now startOfOperation abortLimit maxReadyChanges mid j) (hs : s.WellFormed)
    {c : χ}
    (hc : c ∈ ((mid.state.removeChanges ((readyChanges s).take j)).pruneUnlinkedTasks
      pruneLimit).changeKeys)
    {u : τ} (hu : u ∈ s.taskKeys) (huc : u ∈ (s.changes c).taskIDs) :
    u ∈ ((mid.state.removeChanges ((readyChanges s).take j)).pruneUnlinkedTasks
      pruneLimit).taskKeys := by
  have hcs : c ∈ s.changeKeys := hrun.changeKeys_sublist.subset hc
  have hlink : (mid.state.tasks u).change = c := by
    rw [(hrun.passed.tasks.change_haltTasks u).1]
    exact hs.linked c hcs u huc
  refine StateRecord.mem_pruneUnlinkedTasks_taskKeys.mpr
    ⟨StateRecord.mem_removeChanges_taskKeys.mpr ⟨hrun.passed.taskKeys ▸ hu, fun x hx hux => ?_⟩,
      .inl (by rw [StateRecord.removeChanges_tasks, hlink]; exact hc)⟩
  rw [hrun.passed.changes] at hux
  have hxs : x ∈ s.changeKeys := (mem_readyChanges.mp (List.mem_of_mem_take hx)).1
  rw [← hs.eq_of_mem_taskIDs hcs hxs huc hux] at hx
  exact (mem_pruned_changeKeys.mp hc).2 hx

end Parts

/-- `Prune` on a well-formed state whose tasks wait only within their change: from some fuel on
it has one result, which is not running out of fuel; and where that result is a state, at most
`max maxReadyChanges 0` of the changes that had a ready time remain; a change that had none and
has one now got it from the abort of its unready lanes, at `now`; a removed change with a ready
time became ready before `now - pruneWait` or no later than every kept change that had one; every
change with tasks and no ready time is kept; and the tasks of removed changes go with them, while
kept changes keep all of theirs. -/
theorem prune_keeps_newest_ready_changes (s : StateRecord τ χ) (hs : s.WellFormed)
    (hw : s.WaitsWithinChange) (now startOfOperation pruneWait abortWait maxReadyChanges : Int)
    (pending : StateRecord τ χ → χ → Bool) :
    ∃ N res, (∀ fuel ≥ N,
        s.prune fuel now startOfOperation pruneWait abortWait maxReadyChanges pending = res) ∧
      res ≠ .error (.abort .outOfFuel) ∧
      ∀ r, res = .ok r →
        ((r.changeKeys.countP fun c => (s.readyTime c).isSome : Nat) : Int) ≤
          max maxReadyChanges 0 ∧
        (∀ c ∈ r.changeKeys, s.readyTime c = none → r.readyTime c ≠ none →
          r.readyTime c = some now ∧ max (s.spawnTime c) startOfOperation < now - abortWait) ∧
        (∀ c ∈ s.changeKeys, c ∉ r.changeKeys → ∀ t, s.readyTime c = some t →
          t < now - pruneWait ∨ ∀ d ∈ r.changeKeys, ∀ u, s.readyTime d = some u → t ≤ u) ∧
        (∀ c ∈ s.changeKeys, s.readyTime c = none → (s.changes c).taskIDs ≠ [] →
          c ∈ r.changeKeys) ∧
        (∀ c ∈ s.changeKeys, c ∉ r.changeKeys → ∀ u ∈ r.taskKeys, u ∉ (s.changes c).taskIDs) ∧
        (∀ c ∈ r.changeKeys, ∀ u ∈ s.taskKeys, u ∈ (s.changes c).taskIDs → u ∈ r.taskKeys) := by
  obtain ⟨N, res, hres, hne⟩ :=
    prune_fuel s hs now startOfOperation pruneWait abortWait maxReadyChanges pending
  refine ⟨N, res, hres, hne, fun r hr => ?_⟩
  obtain ⟨mid, j, hrun, rfl⟩ := prune_run hs hw ((hres N le_rfl).trans hr)
  refine ⟨hrun.countP_ready_le hs, fun c hc hnone hsome => ?_, ?_, ?_, ?_, ?_⟩
  · simp only [StateRecord.pruneUnlinkedTasks_readyTime, StateRecord.removeChanges_readyTime]
      at hsome ⊢
    exact hrun.marked_at_now hc hnone hsome
  · intro c hc hgone t ht
    exact .inr fun d hd u hu => hrun.removed_ready_before_kept hc hgone hd ht hu
  · intro c hc hnone htasks
    exact hrun.unready_kept hc hnone htasks
  · intro c hc hgone u hu
    exact hrun.removed_tasks_gone hc hgone hu
  · intro c hc u hu huc
    exact hrun.kept_tasks_stay hs hc hu huc

end Run

/-- `Prune` over a state whose keys are sorted by ready time walks them as they are. -/
theorem prune_of_sorted (s : StateRecord τ χ) (fuel : Nat)
    (now startOfOperation pruneWait abortWait maxReadyChanges : Int)
    (pending : StateRecord τ χ → χ → Bool)
    (h : s.changeKeys.Pairwise fun a b => byReadyTime s.readyTime a b = true) :
    s.prune fuel now startOfOperation pruneWait abortWait maxReadyChanges pending =
      (pruneChanges fuel now startOfOperation (now - pruneWait) (now - abortWait) maxReadyChanges
          pending ⟨s, readyChangesCount s.readyTime s.changeKeys⟩ s.changeKeys).map
        fun acc => acc.state.pruneUnlinkedTasks (now - pruneWait) := by
  unfold StateRecord.prune
  rw [List.mergeSort_of_pairwise h]

/-- A task of lane `1`, with its status, the tasks waiting for it, and its change. -/
def laneTask (status : Status) (haltTasks : List Nat) (c : Nat) : RunnerTask Nat Nat :=
  ⟨⟨status, [], haltTasks⟩, .defaultStatus, [1], c, false, none⟩

/-- One change, spawned at `0` and never ready, with one task to do. -/
def oneDoTaskState : StateRecord Nat Nat where
  changeKeys := [0]
  changes := fun _ => ⟨.defaultStatus, [0]⟩
  ready := fun _ => false
  readyTime := fun _ => none
  spawnTime := fun _ => 0
  taskKeys := [0]
  tasks := fun _ => laneTask .doStatus [] 0
  taskSpawnTime := fun _ => 0

/-- Two changes never ready, the task of `2` waiting for the task of `1`, and a change `3` ready
at `95` with a task done. -/
def crossWaitState : StateRecord Nat Nat where
  changeKeys := [1, 2, 3]
  changes := fun c => ⟨.defaultStatus, [c]⟩
  ready := fun c => c == 3
  readyTime := fun c => if c = 3 then some 95 else none
  spawnTime := fun _ => 0
  taskKeys := [1, 2, 3]
  tasks := fun
    | 1 => laneTask .doStatus [2] 1
    | 2 => ⟨⟨.doStatus, [1], []⟩, .defaultStatus, [2], 2, false, none⟩
    | u => laneTask .doneStatus [] u
  taskSpawnTime := fun _ => 0

/-- One change never ready, with a task to do and then a task done, both of lane `1`. -/
def doThenDoneState : StateRecord Nat Nat where
  changeKeys := [0]
  changes := fun _ => ⟨.defaultStatus, [0, 1]⟩
  ready := fun _ => false
  readyTime := fun _ => none
  spawnTime := fun _ => 0
  taskKeys := [0, 1]
  tasks := fun
    | 0 => laneTask .doStatus [] 0
    | _ => laneTask .doneStatus [] 0
  taskSpawnTime := fun _ => 0

/-- At `now = 100`, with both waits `10`, `maxReadyChanges = 0` and fuel enough for every abort:
the abort of the lone change's unready lane holds its task, which marks the change ready, and
`Prune` keeps it, a ready change over the limit; where a task waits for a task of another change, the abort of the first change
marks the second ready before its turn, which then goes as a ready change, tasks and all; and a
task to do before a task done in one lane makes the abort panic, as the change marked ready
becomes unready. -/
theorem prune_marks_changes_ready_and_may_panic :
    (oneDoTaskState.prune 8 100 0 10 10 0 fun _ _ => false).map
      (fun r => r.changeKeys.countP fun c => (r.readyTime c).isSome) = .ok 1 ∧
    (crossWaitState.prune 8 100 0 10 10 0 fun _ _ => false).map
      (fun r => (decide (2 ∈ r.changeKeys), r.changeKeys.countP fun c => (r.readyTime c).isSome)) =
        .ok (false, 2) ∧
    doThenDoneState.prune 8 100 0 10 10 0 (fun _ _ => false) =
      .error (.abort (.unready 0 .undoStatus)) := by
  refine ⟨?_, ?_, ?_⟩
  · rw [prune_of_sorted _ _ _ _ _ _ _ _ (by decide)]
    rfl
  · rw [prune_of_sorted _ _ _ _ _ _ _ _ (by decide)]
    rfl
  · rw [prune_of_sorted _ _ _ _ _ _ _ _ (by decide)]
    rfl

/-- Three ready changes and one that never became ready, with a task to do, each with its task;
and a task of no change. -/
def pruneDemo : StateRecord Nat Nat where
  changeKeys := [4, 1, 2, 3]
  changes := fun c => ⟨.defaultStatus, [c]⟩
  ready := fun c => c != 4
  readyTime := fun
    | 1 => some 10
    | 2 => some 20
    | 3 => some 95
    | _ => none
  spawnTime := fun _ => 0
  taskKeys := [1, 2, 3, 4, 5]
  tasks := fun
    | 4 => laneTask .doStatus [] 4
    | u => laneTask .doneStatus [] u
  taskSpawnTime := fun _ => 0

theorem pruneDemo_wellFormed : pruneDemo.WellFormed := ⟨by decide, by decide, by decide, by decide⟩

theorem pruneDemo_waitsWithinChange : pruneDemo.WaitsWithinChange := by
  unfold StateRecord.WaitsWithinChange
  decide

theorem pruneDemo_keeps_newest_ready_changes :
    pruneDemo.WellFormed ∧ pruneDemo.WaitsWithinChange ∧
      ∃ N res, (∀ fuel ≥ N, pruneDemo.prune fuel 100 0 10 10 1 (fun _ _ => false) = res) ∧
        res ≠ .error (.abort .outOfFuel) ∧
        ∀ r, res = .ok r →
          ((r.changeKeys.countP fun c => (pruneDemo.readyTime c).isSome : Nat) : Int) ≤ max 1 0 ∧
          (∀ c ∈ r.changeKeys, pruneDemo.readyTime c = none → r.readyTime c ≠ none →
            r.readyTime c = some 100 ∧ max (pruneDemo.spawnTime c) 0 < 100 - 10) ∧
          (∀ c ∈ pruneDemo.changeKeys, c ∉ r.changeKeys → ∀ t, pruneDemo.readyTime c = some t →
            t < 100 - 10 ∨ ∀ d ∈ r.changeKeys, ∀ u, pruneDemo.readyTime d = some u → t ≤ u) ∧
          (∀ c ∈ pruneDemo.changeKeys, pruneDemo.readyTime c = none →
            (pruneDemo.changes c).taskIDs ≠ [] → c ∈ r.changeKeys) ∧
          (∀ c ∈ pruneDemo.changeKeys, c ∉ r.changeKeys → ∀ u ∈ r.taskKeys,
            u ∉ (pruneDemo.changes c).taskIDs) ∧
          (∀ c ∈ r.changeKeys, ∀ u ∈ pruneDemo.taskKeys, u ∈ (pruneDemo.changes c).taskIDs →
            u ∈ r.taskKeys) :=
  ⟨pruneDemo_wellFormed, pruneDemo_waitsWithinChange,
    prune_keeps_newest_ready_changes pruneDemo pruneDemo_wellFormed pruneDemo_waitsWithinChange
      100 0 10 10 1 _⟩

end Snapd.State
