import Snapd.Osutil.MountEntry

/-! Mount profiles on disk (`osutil/mountprofile_linux.go`): `WriteTo` writes the line of each
entry with a newline after it, and `ReadMountProfile` reads the lines with a `bufio.Scanner`,
skips the empty ones and the comments, and parses the others. A profile saved this way is read
back as it was when each of its entries is read back from its line, and each line starts with
no white space and fits the scanner's buffer. -/

namespace Snapd.Osutil

open GoText

/-- `MountProfile.WriteTo`: the line of each entry, with a newline after it. -/
def writeTo (entries : List MountEntry) : List Char :=
  entries.flatMap fun e => e.string ++ ['\n']

/-- One round of the loop of `ReadMountProfile`: a line that is empty or a comment once trimmed
is skipped, any other is parsed and its entry appended, and a line the scanner could not read
stops the reading with the scanner's error. -/
def readLine (entries : List MountEntry) : Option (List Char) → Except String (List MountEntry)
  | none => .error "bufio.Scanner: token too long"
  | some line =>
    let s := trimSpace line
    if s.head? = some '#' then .ok entries
    else if s = [] then .ok entries
    else (parseMountEntry s).map fun entry => entries ++ [entry]

/-- `ReadMountProfile` of a text. -/
def readMountProfile (text : List Char) : Except String (List MountEntry) :=
  (scanLines text).foldlM readLine []

/-- An entry that a saved profile reads back: its line is read back, does not start with white
space, which `TrimSpace` would drop, and fits the scanner's buffer with its newline. -/
structure MountEntry.Saveable (e : MountEntry) : Prop where
  plain : e.Plain
  leading : e.string.head?.all (fun c => !isSpace c) = true
  fits : utf8Length e.string < maxScanTokenSize

instance (e : MountEntry) : Decidable e.Saveable :=
  decidable_of_iff (e.Plain ∧ e.string.head?.all (fun c => !isSpace c) = true ∧
      utf8Length e.string < maxScanTokenSize)
    ⟨fun ⟨h1, h2, h3⟩ => ⟨h1, h2, h3⟩, fun ⟨h1, h2, h3⟩ => ⟨h1, h2, h3⟩⟩

theorem MountEntry.Plain.head?_string {e : MountEntry} (h : e.Plain) :
    e.string.head? = (escape e.name).head? := by
  obtain ⟨c, s, hcs⟩ := List.exists_cons_of_ne_nil h.name.escape.1
  simp [h.string_eq, MountEntry.plainFields, hcs]

theorem MountEntry.Plain.getLast?_string {e : MountEntry} (h : e.Plain) :
    e.string.getLast? = (formatInt e.checkPassNumber).getLast? := by
  have hne : formatInt e.checkPassNumber ≠ [] := (PlainField.formatInt _).1
  rw [h.string_eq, show e.plainFields = [escape e.name, escape e.dir, escape e.type,
      escape ([','].intercalate e.options), formatInt e.dumpFrequency] ++
        [formatInt e.checkPassNumber] from rfl, intercalate_append (by simp) (by simp),
    List.intercalate_singleton, List.getLast?_append_of_ne_nil _ hne]

theorem MountEntry.Plain.newline_not_mem {e : MountEntry} (h : e.Plain) : '\n' ∉ e.string := by
  rw [h.string_eq]
  intro hmem
  rcases mem_intercalate hmem with hsep | ⟨f, hf, hc⟩
  · simp at hsep
  · exact (mem_plainFields hf hc).2 rfl

theorem MountEntry.Saveable.readLine {e : MountEntry} (h : e.Saveable) (entries : List MountEntry) :
    readLine entries (some e.string) = .ok (entries ++ [e]) := by
  obtain ⟨c, hc, hdigit⟩ := getLast?_formatInt e.checkPassNumber
  have hlast : ∀ d ∈ e.string.getLast?, isSpace d = false := fun d hd => by
    rw [h.plain.getLast?_string, hc, Option.mem_some_iff] at hd
    subst hd
    exact isSpace_of_isDigit hdigit
  have hfirst : ∀ d ∈ e.string.head?, isSpace d = false := fun d hd => by
    simpa [Option.mem_def.mp hd] using h.leading
  have htrim : trimSpace e.string = e.string := trimSpace_eq_self hfirst hlast
  have hhash : e.string.head? ≠ some '#' := by
    rw [h.plain.head?_string]
    exact h.plain.name.escape.2
  have hne : e.string ≠ [] := fun hnil => by
    have hl := h.plain.getLast?_string
    rw [hnil, hc] at hl
    cases hl
  simp only [Osutil.readLine, htrim, hhash, if_false, hne, h.plain.parseMountEntry_string]
  rfl

theorem foldlM_readLine {l : List MountEntry} (h : ∀ e ∈ l, e.Saveable) (entries : List MountEntry) :
    (l.map fun e => some e.string).foldlM readLine entries = .ok (entries ++ l) := by
  induction l generalizing entries with
  | nil => simp; rfl
  | cons e l ih =>
    rw [List.map_cons, List.foldlM_cons, (h e List.mem_cons_self).readLine]
    have hrest := ih (fun x hx => h x (List.mem_cons_of_mem e hx)) (entries ++ [e])
    rw [List.append_assoc, List.singleton_append] at hrest
    exact hrest

/-- `ReadMountProfile` reads back the profile that `WriteTo` writes, when each entry's line is
read back, starts with no white space and fits the scanner's buffer. -/
theorem readMountProfile_writeTo (entries : List MountEntry) (h : ∀ e ∈ entries, e.Saveable) :
    readMountProfile (writeTo entries) = .ok entries := by
  have hlines : ∀ line ∈ entries.map MountEntry.string,
      '\n' ∉ line ∧ utf8Length line < maxScanTokenSize ∧ dropCR line = line := by
    intro line hline
    obtain ⟨e, he, rfl⟩ := List.mem_map.mp hline
    obtain ⟨c, hc, hdigit⟩ := getLast?_formatInt e.checkPassNumber
    have hcr : c ≠ '\r' := fun hcr => by simp [hcr] at hdigit
    refine ⟨(h e he).plain.newline_not_mem, (h e he).fits, ?_⟩
    simp [dropCR, (h e he).plain.getLast?_string, hc, hcr]
  have hwrite : writeTo entries = (entries.map MountEntry.string).flatMap (· ++ ['\n']) := by
    simp [writeTo, List.flatMap_map]
  rw [readMountProfile, hwrite, scanLines_flatMap hlines, List.map_map]
  exact foldlM_readLine h []

/-- A profile with a content mount, and a layout whose mount point holds a space. -/
def layoutProfile : List MountEntry :=
  [⟨"/snap/data/1/lib".toList, "/snap/app/1/lib".toList, "none".toList,
      ["bind".toList, "ro".toList], 0, 0⟩,
    ⟨"tmpfs".toList, "/usr/share/my app".toList, "tmpfs".toList,
      ["x-snapd.origin=layout".toList, "mode=0755".toList], 0, 0⟩]

/-- An entry with no options is written with `defaults`, which is read back as an option. -/
example : readMountProfile (writeTo [⟨"tmpfs".toList, "/tmp".toList, "tmpfs".toList, [], 0, 0⟩]) =
    .ok [⟨"tmpfs".toList, "/tmp".toList, "tmpfs".toList, ["defaults".toList], 0, 0⟩] := by
  decide

theorem layoutProfile_reads_back : readMountProfile (writeTo layoutProfile) = .ok layoutProfile :=
  readMountProfile_writeTo layoutProfile (by decide)

end Snapd.Osutil
