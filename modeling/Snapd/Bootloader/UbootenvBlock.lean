import Snapd.Bootloader.Ubootenv

/-! The block of a U-Boot environment reads back what it was written from. `buildImage` writes
each variable as `key=value` ended by a zero byte; `readEnv` checks the CRC, cuts the payload
before its first two zero bytes and splits the rest at the zero bytes. This reads the variables
back when no key is empty, starts with the byte `255` or holds `=` or a zero byte, no value holds
a zero byte, and what is written fits the block. -/

namespace Snapd.Ubootenv

open AssocList GoBytes

/-- A variable that a block reads back. -/
structure StorableVar (e : List UInt8 × List UInt8) : Prop where
  key_ne_nil : e.1 ≠ []
  key_head : e.1.head? ≠ some 255
  key_equalsSign : equalsSign ∉ e.1
  key_zero : (0 : UInt8) ∉ e.1
  value_zero : (0 : UInt8) ∉ e.2

instance (e : List UInt8 × List UInt8) : Decidable (StorableVar e) :=
  decidable_of_iff (e.1 ≠ [] ∧ e.1.head? ≠ some 255 ∧ equalsSign ∉ e.1 ∧ (0 : UInt8) ∉ e.1 ∧
      (0 : UInt8) ∉ e.2)
    ⟨fun ⟨h1, h2, h3, h4, h5⟩ => ⟨h1, h2, h3, h4, h5⟩, fun ⟨h1, h2, h3, h4, h5⟩ => ⟨h1, h2, h3, h4, h5⟩⟩

/-- An environment whose block reads back: its variables do, under distinct keys, and what
`buildPayload` writes fits the block after the header. -/
structure Env.Storable (env : Env) : Prop where
  vars : ∀ e ∈ env.data, StorableVar e
  nodup : (env.data.map Prod.fst).Nodup
  fits : (env.written env.entries).length ≤ env.size - calcHeaderSize env.headerFlagByte

instance (env : Env) : Decidable env.Storable :=
  decidable_of_iff ((∀ e ∈ env.data, StorableVar e) ∧ (env.data.map Prod.fst).Nodup ∧
      (env.written env.entries).length ≤ env.size - calcHeaderSize env.headerFlagByte)
    ⟨fun ⟨h1, h2, h3⟩ => ⟨h1, h2, h3⟩, fun ⟨h1, h2, h3⟩ => ⟨h1, h2, h3⟩⟩

/-- The bytes of a variable before its zero byte. -/
def line (e : List UInt8 × List UInt8) : List UInt8 := e.1 ++ equalsSign :: e.2

theorem line_ne_nil (e : List UInt8 × List UInt8) : line e ≠ [] := by
  simp [line]

theorem StorableVar.zero_not_mem_line {e : List UInt8 × List UInt8} (h : StorableVar e) :
    (0 : UInt8) ∉ line e := by
  simp only [line, List.mem_append, List.mem_cons, not_or]
  exact ⟨h.key_zero, by decide, h.value_zero⟩

theorem StorableVar.parseEntry_line {e : List UInt8 × List UInt8} (h : StorableVar e)
    (flags : OpenFlags) (out : List (List UInt8 × List UInt8)) :
    parseEntry flags out (line e) = .ok (insert out e.1 e.2) := by
  obtain ⟨c, k, hk⟩ := List.exists_cons_of_ne_nil h.key_ne_nil
  have hc0 : c ≠ 0 := fun hc => h.key_zero (by simp [hk, hc])
  have hc255 : c ≠ 255 := fun hc => h.key_head (by simp [hk, hc])
  have hsplit : splitN equalsSign (line e) 2 = [e.1, e.2] := splitN_two h.key_equalsSign e.2
  have hskip : ¬ ((line e).length = 0 ∨ (line e).head? = some 0 ∨ (line e).head? = some 255) := by
    simp [line, hk, hc0, hc255]
  rw [parseEntry, if_neg hskip, hsplit, if_neg (by simp [h.key_ne_nil])]
  rfl

theorem foldlM_parseEntry {entries : List (List UInt8 × List UInt8)}
    (h : ∀ e ∈ entries, StorableVar e) (flags : OpenFlags) (out : List (List UInt8 × List UInt8)) :
    (entries.map line).foldlM (parseEntry flags) out =
      .ok (entries.foldl (fun m e => insert m e.1 e.2) out) := by
  induction entries generalizing out with
  | nil => rfl
  | cons e entries ih =>
    rw [List.map_cons, List.foldlM_cons, (h e List.mem_cons_self).parseEntry_line]
    exact ih (fun x hx => h x (List.mem_cons_of_mem e hx)) _

theorem parseData_intercalate {entries : List (List UInt8 × List UInt8)} (hne : entries ≠ [])
    (h : ∀ e ∈ entries, StorableVar e) (flags : OpenFlags) :
    parseData ([0].intercalate (entries.map line)) flags =
      .ok (entries.foldl (fun m e => insert m e.1 e.2) []) := by
  have hsplit : ([0].intercalate (entries.map line)).splitOn 0 = entries.map line := by
    apply List.splitOn_intercalate
    · intro l hl
      obtain ⟨e, he, rfl⟩ := List.mem_map.mp hl
      exact (h e he).zero_not_mem_line
    · simpa using hne
  rw [parseData, hsplit, foldlM_parseEntry h]

section Entries

variable {env : Env}

theorem get_of_mem (hnd : (env.data.map Prod.fst).Nodup) {e : List UInt8 × List UInt8}
    (he : e ∈ env.data) : env.get e.1 = e.2 := by
  rw [Env.get, (find_eq_some_iff hnd e.1 e.2).mpr he]
  rfl

theorem entries_perm (hnd : (env.data.map Prod.fst).Nodup) : env.entries.Perm env.data := by
  have hsort : env.entries.Perm ((env.data.map Prod.fst).map fun k => (k, env.get k)) :=
    (List.perm_insertionSort (fun a b => (!bytesLess b a) = true) _).map _
  have hself : (env.data.map Prod.fst).map (fun k => (k, env.get k)) = env.data := by
    rw [List.map_map]
    conv_rhs => rw [← List.map_id env.data]
    apply List.map_congr_left
    intro e he
    simp [get_of_mem hnd he]
  rw [hself] at hsort
  exact hsort

theorem find_foldl_insert_entries (hnd : (env.data.map Prod.fst).Nodup) (k : List UInt8) :
    find (env.entries.foldl (fun m e => insert m e.1 e.2) []) k = find env.data k := by
  have hperm := entries_perm hnd
  rw [find_foldl_insert_perm Prod.fst Prod.snd ((hperm.map Prod.fst).nodup_iff.mpr hnd) hperm]
  by_cases hk : k ∈ env.data.map Prod.fst
  · obtain ⟨e, he, rfl⟩ := List.mem_map.mp hk
    rw [find_foldl_insert_of_mem Prod.fst Prod.snd hnd he,
      (find_eq_some_iff hnd e.1 e.2).mpr he]
  · rw [find_foldl_insert_of_not_mem Prod.fst Prod.snd hk]
    exact (Option.not_isSome_iff_eq_none.mp (mt (isSome_find_iff env.data k).mp hk)).symm

theorem Env.Storable.iterEnv (h : env.Storable) : env.iterEnv = .ok env.entries := by
  rw [Env.iterEnv, if_neg]
  simp only [List.any_eq_true, List.isEmpty_iff, not_exists, not_and]
  exact fun e he => (h.vars e he).key_ne_nil

theorem Env.Storable.entries_storable (h : env.Storable) : ∀ e ∈ env.entries, StorableVar e :=
  fun e he => h.vars e ((entries_perm h.nodup).mem_iff.mp he)

theorem entries_eq_nil_iff (hnd : (env.data.map Prod.fst).Nodup) :
    env.entries = [] ↔ env.data = [] := by
  rw [← List.length_eq_zero_iff, (entries_perm hnd).length_eq, List.length_eq_zero_iff]

/-- What `buildPayload` writes for variables: their bytes joined by zero bytes, and two zero
bytes. -/
theorem Env.Storable.written_eq (h : env.Storable) (hne : env.data ≠ []) :
    env.written env.entries = [0].intercalate (env.entries.map line) ++ [0, 0] := by
  have hent : env.entries ≠ [] := mt (entries_eq_nil_iff h.nodup).mp hne
  have hflat : env.entries.flatMap (fun e => e.1 ++ equalsSign :: e.2 ++ [0]) =
      (env.entries.map line).flatMap (· ++ [0]) := by
    rw [List.flatMap_map]
    simp [line]
  rw [Env.written, hflat, flatMap_append_singleton 0 _ (by simpa using hent)]
  simp [List.length_eq_zero_iff, hne]

theorem written_of_eq_nil (hnil : env.data = []) : env.written env.entries = [0, 0] := by
  simp [Env.written, Env.entries, sortStrings, hnil]

theorem two_le_length_written (h : env.Storable) : 2 ≤ (env.written env.entries).length := by
  by_cases hne : env.data = []
  · simp [written_of_eq_nil hne]
  · simp [h.written_eq hne]

theorem Env.Storable.length_payload (h : env.Storable) :
    (env.payload env.entries).length = env.size - calcHeaderSize env.headerFlagByte := by
  simp only [Env.payload, List.length_append, List.length_replicate]
  have := h.fits
  omega

theorem Env.Storable.cutAtEnd_payload (h : env.Storable) :
    cutAtEnd (env.payload env.entries) =
      if env.data = [] then [] else [0].intercalate (env.entries.map line) := by
  split
  · rename_i hnil
    rw [cutAtEnd, Env.payload, written_of_eq_nil hnil]
    simp [index]
  · rename_i hne
    have hlines : ∀ l ∈ env.entries.map line, l ≠ [] ∧ (0 : UInt8) ∉ l := by
      intro l hl
      obtain ⟨e, he, rfl⟩ := List.mem_map.mp hl
      exact ⟨line_ne_nil e, (h.entries_storable e he).zero_not_mem_line⟩
    rw [cutAtEnd, Env.payload, h.written_eq hne, List.append_assoc, List.cons_append,
      List.cons_append, List.nil_append, index_intercalate hlines]
    exact List.take_left ..

theorem Env.Storable.parseData_payload (h : env.Storable) (flags : OpenFlags) :
    ∃ data, parseData (cutAtEnd (env.payload env.entries)) flags = .ok data ∧
      ∀ k, find data k = find env.data k := by
  rw [h.cutAtEnd_payload]
  split
  · rename_i hnil
    refine ⟨[], rfl, fun k => ?_⟩
    simp [hnil]
  · rename_i hne
    have hent : env.entries ≠ [] := mt (entries_eq_nil_iff h.nodup).mp hne
    exact ⟨_, parseData_intercalate hent h.entries_storable flags,
      find_foldl_insert_entries h.nodup⟩

end Entries

section Image

variable {env : Env}

/-- The header of a block: the CRC, and the flag byte when there is one. -/
def header (headerFlagByte : Bool) (crc : UInt32) (flag : UInt8) : List UInt8 :=
  writeUint32 crc ++ (if headerFlagByte then [flag] else [])

theorem length_header (headerFlagByte : Bool) (crc : UInt32) (flag : UInt8) :
    (header headerFlagByte crc flag).length = calcHeaderSize headerFlagByte := by
  cases headerFlagByte <;> rfl

/-- The block of an environment: the header with the CRC of the payload, and the payload. -/
def Env.block (env : Env) (flag : UInt8) : List UInt8 :=
  header env.headerFlagByte (checksumIEEE (env.payload env.entries)) flag ++ env.payload env.entries

theorem Env.Storable.length_block (h : env.Storable) (flag : UInt8) :
    (env.block flag).length = env.size := by
  have hfits := h.fits
  have htwo := two_le_length_written h
  rw [Env.block, List.length_append, length_header, h.length_payload]
  omega

/-- The block that `buildImage` writes for an environment whose block reads back is its header
and its payload, which fill it. -/
theorem Env.Storable.buildImage_eq (h : env.Storable) (flag : UInt8) :
    env.buildImage flag = .ok (env.block flag) := by
  have hfits := h.fits
  have htwo := two_le_length_written h
  have hsize : ¬ env.size < calcHeaderSize env.headerFlagByte := by omega
  rw [Env.buildImage, Env.buildPayload, if_neg hsize, h.iterEnv]
  simp only [Except.map]
  congr 1
  rw [← header, ← Env.block, List.take_left' (h.length_block flag)]

theorem readUint32_header (headerFlagByte : Bool) (crc : UInt32) (flag : UInt8)
    (rest : List UInt8) : readUint32 (header headerFlagByte crc flag ++ rest) = crc := by
  rw [header, List.append_assoc, readUint32, writeUint32, uint32_putUint32_append]

/-- `readEnv` reads the block of an environment whose block reads back: its size, its kind of
header and its variables. -/
theorem Env.Storable.readEnv_block (h : env.Storable) (flag : UInt8) (flags : OpenFlags) :
    ∃ env', readEnv (env.block flag) flags env.headerFlagByte = .ok env' ∧
      env'.size = env.size ∧ env'.headerFlagByte = env.headerFlagByte ∧ env'.redundant = none ∧
      ∀ k, find env'.data k = find env.data k := by
  have hfits := h.fits
  have htwo := two_le_length_written h
  have hhead : 4 ≤ calcHeaderSize env.headerFlagByte := by
    cases env.headerFlagByte <;> decide
  have hdrop : (env.block flag).drop (calcHeaderSize env.headerFlagByte) =
      env.payload env.entries :=
    List.drop_left' (length_header _ _ _)
  obtain ⟨data, hparse, hfind⟩ := h.parseData_payload flags
  refine ⟨⟨[], env.size, env.headerFlagByte, data, none⟩, ?_, rfl, rfl, rfl, hfind⟩
  rw [readEnv, h.length_block, if_neg (by omega), hdrop, Env.block, readUint32_header,
    if_neg (not_not.mpr rfl), hparse]
  rfl

end Image

section Legacy

variable {env : Env}

theorem readEitherHeader_of_ok {c : List UInt8} {flags : OpenFlags} {e : Env}
    (h : readEnv c flags true = .ok e) : readEitherHeader c flags = .ok e := by
  rw [readEitherHeader, h]

theorem readEitherHeader_of_badCrc {c : List UInt8} {flags : OpenFlags} {crc actual : UInt32}
    (h : readEnv c flags true = .error (.badCrc crc actual)) :
    readEitherHeader c flags = readEnv c flags false := by
  rw [readEitherHeader, h]

/-- Read as if it had the flag byte, a block without one fails its CRC check, unless the CRC of
its payload without the first byte is the CRC of its payload. -/
theorem Env.Storable.readEnv_block_badCrc (h : env.Storable) (hb : env.headerFlagByte = false)
    (hcrc : checksumIEEE ((env.payload env.entries).drop 1) ≠ checksumIEEE (env.payload env.entries))
    (flag : UInt8) (flags : OpenFlags) :
    ∃ crc actual, readEnv (env.block flag) flags true = .error (.badCrc crc actual) := by
  have hfits := h.fits
  have htwo := two_le_length_written h
  have hhead : calcHeaderSize env.headerFlagByte = 4 := by
    rw [hb]
    rfl
  have hdrop : (env.block flag).drop (calcHeaderSize true) = (env.payload env.entries).drop 1 := by
    rw [Env.block, hb]
    rfl
  have hcrc' : readUint32 (env.block flag) ≠
      checksumIEEE ((env.block flag).drop (calcHeaderSize true)) := by
    rw [hdrop, Env.block, readUint32_header]
    exact hcrc.symm
  refine ⟨readUint32 (env.block flag), checksumIEEE ((env.block flag).drop (calcHeaderSize true)), ?_⟩
  rw [readEnv, h.length_block, if_neg (by omega), if_pos hcrc']

theorem writeToDevice_whole (fname : List Char) {dev buf : List UInt8}
    (hlen : buf.length = dev.length) : writeToDevice fname dev buf 0 dev.length = .ok buf := by
  rw [writeToDevice, if_neg (Nat.lt_irrefl _)]
  simp [hlen]

theorem Env.Storable.saveLegacy (h : env.Storable) {dev : List UInt8}
    (hdev : dev.length = env.size) : env.saveLegacy dev = .ok (env.block 0) := by
  have hwrite := writeToDevice_whole env.fname ((h.length_block 0).trans hdev.symm)
  rw [hdev] at hwrite
  rw [Env.saveLegacy, h.buildImage_eq]
  exact hwrite

/-- A single-copy environment saved over its file is opened back: its name, size, kind of header
and variables. Without the flag byte this needs the CRC of the payload to differ from the CRC of
the payload without its first byte, since `OpenWithFlags` first reads the block as one with the
flag byte and keeps that reading when its CRC matches. -/
theorem save_open_legacy (env : Env) (h : env.Storable) (hleg : env.redundant = none)
    (hcrc : env.headerFlagByte = false →
      checksumIEEE ((env.payload env.entries).drop 1) ≠ checksumIEEE (env.payload env.entries))
    (dev : List UInt8) (hdev : dev.length = env.size) (flags : OpenFlags) :
    ∃ dev', env.save dev = .ok (env, dev') ∧ ∃ env', openWithFlags env.fname dev' flags = .ok env' ∧
      env'.fname = env.fname ∧ env'.size = env.size ∧ env'.headerFlagByte = env.headerFlagByte ∧
      env'.redundant = none ∧ ∀ k, find env'.data k = find env.data k := by
  have hsave : env.save dev = .ok (env, env.block 0) := by
    rw [Env.save, hleg, h.saveLegacy hdev]
    rfl
  obtain ⟨e, hread, hsize, hhb, hred, hfind⟩ := h.readEnv_block 0 flags
  -- the reading with the flag byte is tried first, and the other one after a bad CRC
  have heither : readEitherHeader (env.block 0) flags = .ok e := by
    cases hb : env.headerFlagByte with
    | true =>
      rw [hb] at hread
      exact readEitherHeader_of_ok hread
    | false =>
      obtain ⟨crc, actual, hbad⟩ := h.readEnv_block_badCrc hb (hcrc hb) 0 flags
      rw [hb] at hread
      rw [readEitherHeader_of_badCrc hbad]
      exact hread
  refine ⟨env.block 0, hsave, { e with fname := env.fname }, ?_, rfl, hsize, hhb, hred, hfind⟩
  rw [openWithFlags, heither]

/-- A file of twelve bytes that holds the variable a=b, with no flag byte. -/
def legacyEnv : Env := ⟨['u', 'b', 'o', 'o', 't', '.', 'e', 'n', 'v'], 12, false, [([97], [98])], none⟩

set_option maxRecDepth 8000 in
theorem legacy_env_reads_back :
    ∃ dev', legacyEnv.save (List.replicate 12 0) = .ok (legacyEnv, dev') ∧
      ∃ env', openWithFlags legacyEnv.fname dev' ⟨false⟩ = .ok env' ∧
        env'.fname = legacyEnv.fname ∧ env'.size = legacyEnv.size ∧
        env'.headerFlagByte = legacyEnv.headerFlagByte ∧ env'.redundant = none ∧
        ∀ k, find env'.data k = find legacyEnv.data k :=
  save_open_legacy legacyEnv (by decide) rfl (fun _ => by decide) _ rfl ⟨false⟩

end Legacy

end Snapd.Ubootenv
