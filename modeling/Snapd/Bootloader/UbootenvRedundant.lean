import Snapd.Bootloader.UbootenvBlock

/-! A redundant U-Boot environment keeps two blocks, one after the other. A save writes the block
of the environment with the flag of the active copy plus one over the inactive copy, and the open
keeps the valid copy with the newer flag. So from any state that `CreateRedundant`, `Set` and
`Save` reach, the active copy holds the last save with its flag and the inactive copy the save
before with the flag before, and the open returns the last saved variables; a save torn before it
completes leaves an inactive copy that does not read, and the open still returns them. -/

namespace Snapd.Ubootenv

open AssocList GoBytes

section Flags

theorem isNewerFlag_self_pred (f : UInt8) : isNewerFlag f (f - 1) = true := by
  have h : f - (f - 1) = 1 := by grind
  rw [isNewerFlag, h]
  decide

theorem isNewerFlag_pred_self (f : UInt8) : isNewerFlag (f - 1) f = false := by
  have h : f - 1 - f = 255 := by grind
  rw [isNewerFlag, h]
  decide

end Flags

section Device

variable {size : Nat} {c1 c2 rest : List UInt8}

theorem readEnvCopy_first (h1 : c1.length = size) :
    readEnvCopy (c1 ++ c2 ++ rest) 0 size = some c1 := by
  rw [readEnvCopy, if_pos (by simp [h1])]
  simp [← h1]

theorem readEnvCopy_second (h1 : c1.length = size) (h2 : c2.length = size) :
    readEnvCopy (c1 ++ c2 ++ rest) size size = some c2 := by
  rw [readEnvCopy, if_pos (by simp; omega), List.append_assoc, List.drop_left' h1,
    List.take_left' h2]

theorem writeToDevice_first (fname : List Char) (h1 : c1.length = size) (h2 : c2.length = size)
    {buf : List UInt8} (hbuf : buf.length = size) :
    writeToDevice fname (c1 ++ c2 ++ rest) buf 0 (size * 2) = .ok (buf ++ c2 ++ rest) := by
  rw [writeToDevice, if_neg (by simp; omega)]
  simp [hbuf, ← h1, List.append_assoc]

theorem writeToDevice_second (fname : List Char) (h1 : c1.length = size) (h2 : c2.length = size)
    {buf : List UInt8} (hbuf : buf.length = size) :
    writeToDevice fname (c1 ++ c2 ++ rest) buf size (size * 2) = .ok (c1 ++ buf ++ rest) := by
  rw [writeToDevice, if_neg (by simp; omega)]
  have htake : (c1 ++ c2 ++ rest).take size = c1 := by
    rw [List.append_assoc, List.take_left' h1]
  have hpad : size - (c1 ++ c2 ++ rest).length = 0 := by
    simp
    omega
  have hdrop : (c1 ++ c2 ++ rest).drop (size + buf.length) = rest := by
    rw [hbuf, ← List.drop_drop, List.append_assoc, List.drop_left' h1, List.drop_left' h2]
  rw [htake, hpad, hdrop]
  simp

theorem le_length_of_writeToDevice {fname : List Char} {dev buf dev' : List UInt8}
    {offset minimumSize : Nat} (h : writeToDevice fname dev buf offset minimumSize = .ok dev') :
    minimumSize ≤ dev.length := by
  rw [writeToDevice] at h
  split at h
  · cases h
  · omega

theorem exists_copies {dev : List UInt8} (h : size * 2 ≤ dev.length) :
    ∃ c1 c2 rest, c1.length = size ∧ c2.length = size ∧ dev = c1 ++ c2 ++ rest := by
  refine ⟨dev.take size, (dev.drop size).take size, (dev.drop size).drop size, ?_, ?_, ?_⟩
  · simp; omega
  · simp; omega
  · rw [List.append_assoc, List.take_append_drop, List.take_append_drop]

end Device

/-- The environment that a redundant block of `size` bytes is written for. -/
def savedEnv (size : Nat) (data : List (List UInt8 × List UInt8)) : Env :=
  ⟨[], size, true, data, none⟩

/-- The two copies of a device in their places, the active one first when it is `Copy1`. -/
def placeCopies : EnvCopy → List UInt8 → List UInt8 → List UInt8
  | .copy1, active, inactive => active ++ inactive
  | .copy2, active, inactive => inactive ++ active

/-- A device whose active copy holds the block of the variables `last` with the active flag and
whose inactive copy holds the block of `previous` with the flag before. -/
structure Stored (size : Nat) (dev : List UInt8) (r : Redundancy)
    (last previous : List (List UInt8 × List UInt8)) : Prop where
  last_storable : (savedEnv size last).Storable
  previous_storable : (savedEnv size previous).Storable
  copies : ∃ rest, dev = placeCopies r.activeCopy ((savedEnv size last).block r.activeFlag)
    ((savedEnv size previous).block (r.activeFlag - 1)) ++ rest

section Stored

variable {size : Nat} {data : List (List UInt8 × List UInt8)}

theorem flagOf_block (h : (savedEnv size data).Storable) (flag : UInt8) :
    flagOf (some ((savedEnv size data).block flag)) = flag := by
  have hlen := h.length_block flag
  rfl

theorem readCopy_block (h : (savedEnv size data).Storable) (flag : UInt8) (flags : OpenFlags) :
    ∃ e, (∀ unreadable, readCopy (some ((savedEnv size data).block flag)) unreadable flags = .ok e) ∧
      ∀ k, find e.data k = find data k := by
  obtain ⟨e, hread, -, -, -, hfind⟩ := h.readEnv_block flag flags
  refine ⟨e, fun unreadable => ?_, hfind⟩
  rw [readCopy]
  exact congrArg (Except.mapError ReadError.text) hread

theorem block_savedEnv {env : Env} (hb : env.headerFlagByte = true) (flag : UInt8) :
    (savedEnv env.size env.data).block flag = env.block flag := by
  obtain ⟨fname, size, headerFlagByte, data, redundant⟩ := env
  cases hb
  rfl

theorem Env.Storable.savedEnv {env : Env} (h : env.Storable) (hb : env.headerFlagByte = true) :
    (Ubootenv.savedEnv env.size env.data).Storable := by
  obtain ⟨fname, size, headerFlagByte, data, redundant⟩ := env
  cases hb
  exact ⟨h.vars, h.nodup, h.fits⟩

theorem openRedundant_copies {c1 c2 rest : List UInt8} (h1 : c1.length = size)
    (h2 : c2.length = size) (devname : List Char) (flags : OpenFlags) :
    openRedundantWithFlags devname (c1 ++ c2 ++ rest) size flags =
      (selectCopy devname (some c1) (some c2) (readCopy (some c1) "copy1 unreadable" flags)
        (readCopy (some c2) "copy2 unreadable" flags)).map
        fun p => { p.1 with fname := devname, size := size, redundant := some p.2 } := by
  simp only [openRedundantWithFlags, redundantOffsets, readEnvCopy_first h1,
    readEnvCopy_second h1 h2]
  rw [if_neg (by simp)]

/-- The open of a device whose copies hold the last two saves returns the variables of the last
one, with its copy and flag: both copies read, and the active flag is the newer. -/
theorem Stored.openRedundant {dev : List UInt8} {r : Redundancy}
    {last previous : List (List UInt8 × List UInt8)} (hs : Stored size dev r last previous)
    (devname : List Char) (flags : OpenFlags) :
    ∃ env', openRedundantWithFlags devname dev size flags = .ok env' ∧ env'.fname = devname ∧
      env'.size = size ∧ env'.redundant = some r ∧ ∀ k, find env'.data k = find last k := by
  obtain ⟨f, c⟩ := r
  obtain ⟨rest, hdev⟩ := hs.copies
  have hlast : ((savedEnv size last).block f).length = size := hs.last_storable.length_block f
  have hprev : ((savedEnv size previous).block (f - 1)).length = size :=
    hs.previous_storable.length_block (f - 1)
  obtain ⟨eL, hL, hfindL⟩ := readCopy_block hs.last_storable f flags
  obtain ⟨eP, hP, -⟩ := readCopy_block hs.previous_storable (f - 1) flags
  have hflagL := flagOf_block hs.last_storable f
  have hflagP := flagOf_block hs.previous_storable (f - 1)
  cases c with
  | copy1 =>
    have hdev : dev = (savedEnv size last).block f ++ (savedEnv size previous).block (f - 1) ++
        rest := hdev
    rw [hdev, openRedundant_copies hlast hprev, hL, hP]
    simp only [selectCopy, hflagL, hflagP, isNewerFlag_self_pred, if_true]
    exact ⟨_, rfl, rfl, rfl, rfl, hfindL⟩
  | copy2 =>
    have hdev : dev = (savedEnv size previous).block (f - 1) ++ (savedEnv size last).block f ++
        rest := hdev
    rw [hdev, openRedundant_copies hprev hlast, hL, hP]
    simp only [selectCopy, hflagL, hflagP, isNewerFlag_pred_self, Bool.false_eq_true, if_false]
    exact ⟨_, rfl, rfl, rfl, rfl, hfindL⟩

section Write

variable {env : Env} {c1 c2 rest : List UInt8}

theorem Env.Storable.saveRedundant_copy1 (h : env.Storable) (h1 : c1.length = env.size)
    (h2 : c2.length = env.size) (f : UInt8) :
    env.saveRedundant ⟨f, .copy1⟩ (c1 ++ c2 ++ rest) =
      .ok ({ env with redundant := some ⟨f + 1, .copy2⟩ }, c1 ++ env.block (f + 1) ++ rest) := by
  rw [Env.saveRedundant, h.buildImage_eq]
  show (writeToDevice env.fname _ (env.block (f + 1)) env.size (env.size * 2)).map _ = _
  rw [writeToDevice_second env.fname h1 h2 (h.length_block (f + 1))]
  rfl

theorem Env.Storable.saveRedundant_copy2 (h : env.Storable) (h1 : c1.length = env.size)
    (h2 : c2.length = env.size) (f : UInt8) :
    env.saveRedundant ⟨f, .copy2⟩ (c1 ++ c2 ++ rest) =
      .ok ({ env with redundant := some ⟨f + 1, .copy1⟩ }, env.block (f + 1) ++ c2 ++ rest) := by
  rw [Env.saveRedundant, h.buildImage_eq]
  show (writeToDevice env.fname _ (env.block (f + 1)) 0 (env.size * 2)).map _ = _
  rw [writeToDevice_first env.fname h1 h2 (h.length_block (f + 1))]
  rfl

end Write

/-- A save of an environment whose block reads back writes its block with the next flag over
the inactive copy, which becomes the active one; the last save becomes the previous one. -/
theorem Stored.saveRedundant {env : Env} {dev : List UInt8} {r : Redundancy}
    {last previous : List (List UInt8 × List UInt8)} (hs : Stored env.size dev r last previous)
    (h : env.Storable) (hb : env.headerFlagByte = true) :
    ∃ dev', env.saveRedundant r dev =
        .ok ({ env with redundant := some ⟨r.activeFlag + 1, r.activeCopy.other⟩ }, dev') ∧
      Stored env.size dev' ⟨r.activeFlag + 1, r.activeCopy.other⟩ env.data last := by
  obtain ⟨f, c⟩ := r
  obtain ⟨rest, hdev⟩ := hs.copies
  have hlast : ((savedEnv env.size last).block f).length = env.size :=
    hs.last_storable.length_block f
  have hprev : ((savedEnv env.size previous).block (f - 1)).length = env.size :=
    hs.previous_storable.length_block (f - 1)
  have hflag : f + 1 - 1 = f := by grind
  have hstored : ∀ c', ∀ dev', dev' = placeCopies c' (env.block (f + 1))
      ((savedEnv env.size last).block f) ++ rest →
      Stored env.size dev' ⟨f + 1, c'⟩ env.data last := by
    intro c' dev' hdev'
    refine ⟨h.savedEnv hb, hs.last_storable, rest, ?_⟩
    rw [hdev', hflag, block_savedEnv hb]
  cases c with
  | copy1 =>
    have hdev : dev = (savedEnv env.size last).block f ++
        (savedEnv env.size previous).block (f - 1) ++ rest := hdev
    rw [hdev, h.saveRedundant_copy1 hlast hprev]
    exact ⟨_, rfl, hstored .copy2 _ rfl⟩
  | copy2 =>
    have hdev : dev = (savedEnv env.size previous).block (f - 1) ++
        (savedEnv env.size last).block f ++ rest := hdev
    rw [hdev, h.saveRedundant_copy2 hprev hlast]
    exact ⟨_, rfl, hstored .copy1 _ rfl⟩

theorem save_of_redundant {env : Env} {r : Redundancy} (hr : env.redundant = some r)
    (dev : List UInt8) : env.save dev = env.saveRedundant r dev := by
  rw [Env.save, hr]

theorem le_length_of_save {env : Env} {r : Redundancy} {dev : List UInt8}
    {p : Env × List UInt8} (hr : env.redundant = some r) (h : env.save dev = .ok p) :
    env.size * 2 ≤ dev.length := by
  rw [save_of_redundant hr, Env.saveRedundant] at h
  cases hbuf : env.buildImage (r.activeFlag + 1) with
  | error msg =>
    simp [hbuf, bind, Except.bind] at h
  | ok buf =>
    cases hw : writeToDevice env.fname dev buf (copyOffset env.size r.activeCopy.other)
        (env.size * 2) with
    | error msg =>
      simp [hbuf, hw, bind, Except.bind, Except.map] at h
    | ok dev' => exact le_length_of_writeToDevice hw

/-- CreateRedundant of blocks that hold the empty environment leaves the copies holding it, the
first copy active with flag 2 and the second with flag 1. -/
theorem createRedundant_stored {fname : List Char} {needsCreate : Bool} {dev₀ dev : List UInt8}
    {env : Env} (hsize : 7 ≤ size) (h : createRedundant fname needsCreate dev₀ size = .ok (env, dev)) :
    env.fname = fname ∧ env.size = size ∧ env.headerFlagByte = true ∧
      ∃ r, env.redundant = some r ∧ Stored size dev r [] [] := by
  have hempty : Env.Storable ⟨fname, size, true, [], some ⟨flagObsolete, .copy1⟩⟩ := by
    refine ⟨by simp, by simp, ?_⟩
    rw [written_of_eq_nil rfl]
    simp only [List.length_cons, List.length_nil, calcHeaderSize, sizeOfUint32, if_true]
    omega
  rw [createRedundant] at h
  cases hfirst : Env.save ⟨fname, size, true, [], some ⟨flagObsolete, .copy1⟩⟩
      (if needsCreate then List.replicate (size * 2) 0 else dev₀) with
  | error msg =>
    rw [hfirst] at h
    cases h
  | ok p =>
    have hlen := le_length_of_save rfl hfirst
    obtain ⟨c1, c2, rest, h1, h2, hdev⟩ := exists_copies hlen
    rw [hfirst] at h
    -- the first save writes the second copy, the second save the first
    rw [save_of_redundant rfl, hdev, hempty.saveRedundant_copy1 h1 h2] at hfirst
    cases hfirst
    have hempty1 : Env.Storable ⟨fname, size, true, [], some ⟨flagObsolete + 1, .copy2⟩⟩ :=
      ⟨hempty.vars, hempty.nodup, hempty.fits⟩
    have hlen1 := hempty.length_block (flagObsolete + 1)
    change Env.save ⟨fname, size, true, [], some ⟨flagObsolete + 1, .copy2⟩⟩
      (c1 ++ _ ++ rest) = _ at h
    rw [save_of_redundant rfl, hempty1.saveRedundant_copy2 h1 hlen1] at h
    cases h
    refine ⟨rfl, rfl, rfl, _, rfl, hempty.savedEnv rfl, hempty.savedEnv rfl, rest, ?_⟩
    rfl

end Stored

theorem set_fields {env env' : Env} {name value : List UInt8} (h : env.set name value = .ok env') :
    env'.fname = env.fname ∧ env'.size = env.size ∧ env'.headerFlagByte = env.headerFlagByte ∧
      env'.redundant = env.redundant := by
  rw [Env.set] at h
  split at h
  · cases h
  · split at h
    · cases h
      exact ⟨rfl, rfl, rfl, rfl⟩
    · cases h
      exact ⟨rfl, rfl, rfl, rfl⟩

/-- The states of a redundant environment and its device that CreateRedundant, Set and
Save reach, with the variables of the last save. Each save is of an environment whose block
reads back. -/
inductive Reachable (fname : List Char) (size : Nat) :
    Env → List UInt8 → List (List UInt8 × List UInt8) → Prop
  | create (needsCreate : Bool) (dev₀ : List UInt8) {env : Env} {dev : List UInt8} :
      7 ≤ size → createRedundant fname needsCreate dev₀ size = .ok (env, dev) →
      Reachable fname size env dev []
  | set {env env' : Env} {dev : List UInt8} {last : List (List UInt8 × List UInt8)}
      (name value : List UInt8) :
      Reachable fname size env dev last → env.set name value = .ok env' →
      Reachable fname size env' dev last
  | save {env env' : Env} {dev dev' : List UInt8} {last : List (List UInt8 × List UInt8)} :
      Reachable fname size env dev last → env.Storable → env.save dev = .ok (env', dev') →
      Reachable fname size env' dev' env.data

/-- The invariant of the reachable states: the environment keeps its file, size and header, and
the device holds the last save in the active copy it tracks. -/
structure Tracks (fname : List Char) (size : Nat) (env : Env) (dev : List UInt8)
    (last : List (List UInt8 × List UInt8)) : Prop where
  fname_eq : env.fname = fname
  size_eq : env.size = size
  headerFlagByte_eq : env.headerFlagByte = true
  stored : ∃ r previous, env.redundant = some r ∧ Stored size dev r last previous

section Runs

variable {fname : List Char} {size : Nat}

theorem Tracks.set {env env' : Env} {dev : List UInt8} {last : List (List UInt8 × List UInt8)}
    {name value : List UInt8} (ht : Tracks fname size env dev last)
    (h : env.set name value = .ok env') : Tracks fname size env' dev last := by
  obtain ⟨hf, hs, hb, hr⟩ := set_fields h
  obtain ⟨r, previous, henv, hstored⟩ := ht.stored
  exact ⟨hf.trans ht.fname_eq, hs.trans ht.size_eq, hb.trans ht.headerFlagByte_eq,
    r, previous, hr.trans henv, hstored⟩

theorem Tracks.save {env env' : Env} {dev dev' : List UInt8}
    {last : List (List UInt8 × List UInt8)} (ht : Tracks fname size env dev last)
    (hstor : env.Storable) (h : env.save dev = .ok (env', dev')) :
    Tracks fname size env' dev' env.data := by
  obtain ⟨r, previous, henv, hstored⟩ := ht.stored
  rw [← ht.size_eq] at hstored
  obtain ⟨dev'', hsave, hstored'⟩ := hstored.saveRedundant hstor ht.headerFlagByte_eq
  rw [save_of_redundant henv, hsave] at h
  cases h
  rw [ht.size_eq] at hstored'
  exact ⟨ht.fname_eq, ht.size_eq, ht.headerFlagByte_eq, _, last, rfl, hstored'⟩

/-- Every reachable state keeps the invariant: by induction on the run, from the two saves of
CreateRedundant, through Set which leaves the device, and Save which moves the copies. -/
theorem Reachable.tracks {env : Env} {dev : List UInt8} {last : List (List UInt8 × List UInt8)}
    (h : Reachable fname size env dev last) : Tracks fname size env dev last := by
  induction h with
  | create needsCreate dev₀ hsize hcreate =>
    obtain ⟨hf, hs, hb, r, hr, hstored⟩ := createRedundant_stored hsize hcreate
    exact ⟨hf, hs, hb, r, [], hr, hstored⟩
  | set name value _ hset ih => exact ih.set hset
  | save _ hstor hsave ih => exact ih.save hstor hsave

/-- After any run of CreateRedundant, Set and Save, the open of the device returns the
variables of the last save, with the copy and flag that the environment tracks. -/
theorem reachable_open {env : Env} {dev : List UInt8} {last : List (List UInt8 × List UInt8)}
    (h : Reachable fname size env dev last) (flags : OpenFlags) :
    ∃ env', openRedundantWithFlags fname dev size flags = .ok env' ∧ env'.fname = env.fname ∧
      env'.size = env.size ∧ env'.redundant = env.redundant ∧
      ∀ k, find env'.data k = find last k := by
  have ht := h.tracks
  obtain ⟨r, previous, henv, hstored⟩ := ht.stored
  obtain ⟨env', hopen, hf, hs, hr, hfind⟩ := hstored.openRedundant fname flags
  exact ⟨env', hopen, hf.trans ht.fname_eq.symm, hs.trans ht.size_eq.symm, hr.trans henv.symm,
    hfind⟩

set_option maxRecDepth 8000 in
theorem open_after_set_and_save :
    ∃ env', openRedundantWithFlags ['e'] [17, 56, 179, 137, 2, 0, 0, 255, 255, 255, 255, 255,
        142, 186, 157, 85, 3, 97, 61, 98, 0, 0, 255, 255] 12 ⟨false⟩ = .ok env' ∧
      env'.fname = ['e'] ∧ env'.size = 12 ∧ env'.redundant = some ⟨3, .copy2⟩ ∧
      ∀ k, find env'.data k = find [([97], [98])] k := by
  have hcreate : Reachable ['e'] 12 ⟨['e'], 12, true, [], some ⟨2, .copy1⟩⟩
      [17, 56, 179, 137, 2, 0, 0, 255, 255, 255, 255, 255,
        17, 56, 179, 137, 1, 0, 0, 255, 255, 255, 255, 255] [] :=
    Reachable.create true [] (by decide) rfl
  have hset : Reachable ['e'] 12 ⟨['e'], 12, true, [([97], [98])], some ⟨2, .copy1⟩⟩
      [17, 56, 179, 137, 2, 0, 0, 255, 255, 255, 255, 255,
        17, 56, 179, 137, 1, 0, 0, 255, 255, 255, 255, 255] [] :=
    Reachable.set [97] [98] hcreate rfl
  have hsave : Reachable ['e'] 12 ⟨['e'], 12, true, [([97], [98])], some ⟨3, .copy2⟩⟩
      [17, 56, 179, 137, 2, 0, 0, 255, 255, 255, 255, 255,
        142, 186, 157, 85, 3, 97, 61, 98, 0, 0, 255, 255] [([97], [98])] :=
    Reachable.save hset (by decide) rfl
  exact reachable_open hsave ⟨false⟩

theorem readCopy_of_not_ok {torn : List UInt8} {flags : OpenFlags}
    (hbad : ∀ e, readEnv torn flags true ≠ .ok e) (unreadable : String) :
    ∃ err, readCopy (some torn) unreadable flags = .error err := by
  cases hread : readEnv torn flags true with
  | error e => exact ⟨e.text, by rw [readCopy, hread]; rfl⟩
  | ok e => exact absurd hread (hbad e)

/-- A save torn before it completes: whatever it left in the inactive copy, when that copy does
not read as an environment, the open still returns the variables of the last save, with the
active copy and flag from before the save. -/
theorem reachable_torn_save {env : Env} {dev dev' : List UInt8}
    {last : List (List UInt8 × List UInt8)} (h : Reachable fname size env dev last)
    {r : Redundancy} (hr : env.redundant = some r) (torn : List UInt8) (hlen : torn.length = size)
    (flags : OpenFlags) (hbad : ∀ e, readEnv torn flags true ≠ .ok e)
    (hw : writeToDevice fname dev torn (copyOffset size r.activeCopy.other) (size * 2) = .ok dev') :
    ∃ env', openRedundantWithFlags fname dev' size flags = .ok env' ∧ env'.redundant = some r ∧
      ∀ k, find env'.data k = find last k := by
  have ht := h.tracks
  obtain ⟨r', previous, henv, hs⟩ := ht.stored
  rw [hr, Option.some.injEq] at henv
  subst henv
  obtain ⟨f, c⟩ := r
  obtain ⟨rest, hdev⟩ := hs.copies
  have hlast : ((savedEnv size last).block f).length = size := hs.last_storable.length_block f
  have hprev : ((savedEnv size previous).block (f - 1)).length = size :=
    hs.previous_storable.length_block (f - 1)
  obtain ⟨eL, hL, hfindL⟩ := readCopy_block hs.last_storable f flags
  have hflagL := flagOf_block hs.last_storable f
  cases c with
  | copy1 =>
    have hdev : dev = (savedEnv size last).block f ++ (savedEnv size previous).block (f - 1) ++
        rest := hdev
    subst hdev
    rw [show copyOffset size EnvCopy.copy1.other = size from rfl,
      writeToDevice_second fname hlast hprev hlen] at hw
    cases hw
    obtain ⟨err, herr⟩ := readCopy_of_not_ok hbad "copy2 unreadable"
    rw [openRedundant_copies hlast hlen, hL, herr]
    simp only [selectCopy, hflagL]
    exact ⟨_, rfl, rfl, hfindL⟩
  | copy2 =>
    have hdev : dev = (savedEnv size previous).block (f - 1) ++ (savedEnv size last).block f ++
        rest := hdev
    subst hdev
    rw [show copyOffset size EnvCopy.copy2.other = 0 from rfl,
      writeToDevice_first fname hprev hlast hlen] at hw
    cases hw
    obtain ⟨err, herr⟩ := readCopy_of_not_ok hbad "copy1 unreadable"
    rw [openRedundant_copies hlen hlast, herr, hL]
    simp only [selectCopy, hflagL]
    exact ⟨_, rfl, rfl, hfindL⟩

set_option maxRecDepth 8000 in
theorem torn_save_keeps_created :
    ∃ env', openRedundantWithFlags ['e'] [17, 56, 179, 137, 2, 0, 0, 255, 255, 255, 255, 255,
        142, 186, 157, 85, 3, 97, 0, 255, 255, 255, 255, 255] 12 ⟨false⟩ = .ok env' ∧
      env'.redundant = some ⟨2, .copy1⟩ ∧ ∀ k, find env'.data k = find [] k := by
  have hcreate : Reachable ['e'] 12 ⟨['e'], 12, true, [], some ⟨2, .copy1⟩⟩
      [17, 56, 179, 137, 2, 0, 0, 255, 255, 255, 255, 255,
        17, 56, 179, 137, 1, 0, 0, 255, 255, 255, 255, 255] [] :=
    Reachable.create true [] (by decide) rfl
  have hset : Reachable ['e'] 12 ⟨['e'], 12, true, [([97], [98])], some ⟨2, .copy1⟩⟩
      [17, 56, 179, 137, 2, 0, 0, 255, 255, 255, 255, 255,
        17, 56, 179, 137, 1, 0, 0, 255, 255, 255, 255, 255] [] :=
    Reachable.set [97] [98] hcreate rfl
  -- the save stopped after six bytes of the new block
  have hbad : ∀ e, readEnv [142, 186, 157, 85, 3, 97, 0, 255, 255, 255, 255, 255] ⟨false⟩ true ≠
      .ok e := by
    intro e he
    rw [show readEnv [142, 186, 157, 85, 3, 97, 0, 255, 255, 255, 255, 255] ⟨false⟩ true =
      .error (.badCrc 1436400270 2758967104) from rfl] at he
    cases he
  exact reachable_torn_save hset rfl [142, 186, 157, 85, 3, 97, 0, 255, 255, 255, 255, 255] rfl
    ⟨false⟩ hbad rfl

end Runs

end Snapd.Ubootenv
