import Mathlib.Data.List.TakeWhile
import Snapd.Lib.GoText

/-! Entries of mount profiles (`osutil/mountentry.go`, `osutil/mountentry_linux.go`): their
options, and the line of an fstab file that `String` writes for an entry and
`ParseMountEntry` reads back. `String` escapes space, tab, newline and backslash as octal
sequences, which `ParseMountEntry` undoes field by field. -/

namespace Snapd.Osutil

/-- `osutil.MountEntry`: one entry of a mount profile. -/
structure MountEntry where
  name : List Char
  dir : List Char
  type : List Char
  options : List (List Char)
  dumpFrequency : Int
  checkPassNumber : Int
  deriving DecidableEq, Repr

namespace MountEntry

/-- `OptStr`: the value of the first option `name=value`. -/
def optStr (e : MountEntry) (name : List Char) : Option (List Char) :=
  (e.options.find? fun opt => (name ++ ['=']).isPrefixOf opt).map fun opt =>
    (opt.dropWhile (· ≠ '=')).drop 1

/-- `OptBool`: whether the option `name` is given. -/
def optBool (e : MountEntry) (name : List Char) : Bool := e.options.contains name

/-- `XSnapdEntryID`: the `x-snapd.id` option, or else the mount point. -/
def xSnapdEntryID (e : MountEntry) : List Char := (e.optStr "x-snapd.id".toList).getD e.dir

def xSnapdNeededBy (e : MountEntry) : List Char := (e.optStr "x-snapd.needed-by".toList).getD []

def xSnapdOrigin (e : MountEntry) : List Char := (e.optStr "x-snapd.origin".toList).getD []

def xSnapdSynthetic (e : MountEntry) : Bool := e.optBool "x-snapd.synthetic".toList

def xSnapdKind (e : MountEntry) : List Char := (e.optStr "x-snapd.kind".toList).getD []

def xSnapdDetach (e : MountEntry) : Bool := e.optBool "x-snapd.detach".toList

end MountEntry

/-- `equalStrings`: the same strings in the same order. -/
def equalStrings (a b : List (List Char)) : Bool :=
  a.length == b.length && (a.zip b).all fun p => p.1 == p.2

theorem equalStrings_iff : ∀ a b : List (List Char), equalStrings a b = true ↔ a = b
  | [], [] => by simp [equalStrings]
  | [], _ :: _ => by simp [equalStrings]
  | _ :: _, [] => by simp [equalStrings]
  | x :: xs, y :: ys => by
    have ih := equalStrings_iff xs ys
    simp [equalStrings] at ih ⊢
    rw [← ih]
    tauto

/-- `MountEntry.Equal`: every field is the same. -/
def MountEntry.equal (e o : MountEntry) : Bool :=
  e.name == o.name && e.dir == o.dir && e.type == o.type && equalStrings e.options o.options &&
    e.dumpFrequency == o.dumpFrequency && e.checkPassNumber == o.checkPassNumber

theorem MountEntry.equal_iff {e o : MountEntry} : e.equal o = true ↔ e = o := by
  cases e
  cases o
  simp [MountEntry.equal, equalStrings_iff, and_assoc]

/-- One character as `escape` writes it. -/
def escapeChar (c : Char) : List Char :=
  if c = ' ' then ['\\', '0', '4', '0']
  else if c = '\t' then ['\\', '0', '1', '1']
  else if c = '\n' then ['\\', '0', '1', '2']
  else if c = '\\' then ['\\', '1', '3', '4']
  else [c]

/-- `escape`: a `strings.Replacer` of single characters, so each character is replaced on its
own. -/
def escape (s : List Char) : List Char := s.flatMap escapeChar

/-- `unescape`: a `strings.Replacer` of four-character sequences, which replaces from the left
and does not read what it wrote. -/
def unescape : List Char → List Char
  | '\\' :: '0' :: '4' :: '0' :: s => ' ' :: unescape s
  | '\\' :: '0' :: '1' :: '1' :: s => '\t' :: unescape s
  | '\\' :: '0' :: '1' :: '2' :: s => '\n' :: unescape s
  | '\\' :: '1' :: '3' :: '4' :: s => '\\' :: unescape s
  | c :: s => c :: unescape s
  | [] => []

/-- `MountEntry.String`: the fields separated by spaces, `none` for an empty name, mount point
or type and `defaults` for no options. -/
def MountEntry.string (e : MountEntry) : List Char :=
  let name := if e.name ≠ [] then escape e.name else "none".toList
  let dir := if e.dir ≠ [] then escape e.dir else "none".toList
  let fsType := if e.type ≠ [] then escape e.type else "none".toList
  let options := if e.options ≠ [] then escape ([','].intercalate e.options) else "defaults".toList
  [' '].intercalate [name, dir, fsType, options, GoText.formatInt e.dumpFrequency,
    GoText.formatInt e.checkPassNumber]

/-- Whether `ParseMountEntry` separates fields at a character. -/
def isFieldSeparator (r : Char) : Bool := r = ' ' || r = '\t'

/-- The fields of a line before the first that starts with `#`, an inline comment. -/
def fieldsBeforeComment (s : List Char) : List (List Char) :=
  (GoText.fieldsFunc isFieldSeparator s).takeWhile fun field => field.head? ≠ some '#'

/-- `ParseMountEntry`. The options are the fourth field, or with more than six fields all but
the first three and the last two, joined by spaces; the dump frequency and the check pass
number are the fields after them, zero where they are missing. -/
def parseMountEntry (s : List Char) : Except String MountEntry :=
  let fields := fieldsBeforeComment s
  if fields.length < 3 then
    .error ("expected at least 3 fields, found " ++ toString fields.length)
  else
    let tailFieldIndex := if fields.length > 6 then fields.length - 2 else 4
    let options :=
      if fields.length > 3 then
        (unescape (if fields.length > 6 then [' '].intercalate ((fields.take tailFieldIndex).drop 3)
          else fields.getD 3 [])).splitOn ','
      else []
    let dumpFrequency :=
      if fields.length > tailFieldIndex then GoText.atoi (fields.getD tailFieldIndex []) else some 0
    let checkPassNumber :=
      if fields.length > tailFieldIndex + 1 then GoText.atoi (fields.getD (tailFieldIndex + 1) [])
      else some 0
    match dumpFrequency, checkPassNumber with
    | none, _ => .error ("cannot parse dump frequency: " ++ GoText.quote (fields.getD tailFieldIndex []))
    | some _, none =>
      .error ("cannot parse check pass number: " ++ GoText.quote (fields.getD (tailFieldIndex + 1) []))
    | some df, some cpn =>
      .ok ⟨unescape (fields.getD 0 []), unescape (fields.getD 1 []), unescape (fields.getD 2 []),
        options, df, cpn⟩

section RoundTrip

open GoText

@[simp] theorem escape_nil : escape [] = [] := rfl

@[simp] theorem escape_cons (c : Char) (s : List Char) : escape (c :: s) = escapeChar c ++ escape s :=
  List.flatMap_cons

theorem unescape_escapeChar_append (c : Char) (s : List Char) :
    unescape (escapeChar c ++ s) = c :: unescape s := by
  unfold escapeChar
  split_ifs with h1 h2 h3 h4
  · subst h1; rfl
  · subst h2; rfl
  · subst h3; rfl
  · subst h4; rfl
  · -- a character written as itself is read as itself, a backslash being escaped
    rw [List.singleton_append, unescape.eq_def]
    split <;> simp_all

theorem unescape_escape (s : List Char) : unescape (escape s) = s := by
  induction s with
  | nil => rfl
  | cons c s ih => rw [escape_cons, unescape_escapeChar_append, ih]

theorem not_mem_escape {s : List Char} {d : Char} (h : d ∈ escape s) :
    isFieldSeparator d = false ∧ d ≠ '\n' := by
  obtain ⟨c, -, hc⟩ := List.mem_flatMap.mp h
  unfold escapeChar at hc
  split_ifs at hc with h1 h2 h3 <;> simp at hc <;> rcases hc with rfl | rfl | rfl | rfl <;>
    simp_all [isFieldSeparator]

theorem head?_escape (c : Char) (s : List Char) :
    (escape (c :: s)).head? = some (if c = ' ' ∨ c = '\t' ∨ c = '\n' ∨ c = '\\' then '\\' else c) := by
  simp only [escape_cons, escapeChar]
  split_ifs <;> simp_all

/-- A field that `String` writes and `ParseMountEntry` reads as one field: not empty, and not
starting with `#`, which would make it and what follows a comment. -/
def PlainField (f : List Char) : Prop := f ≠ [] ∧ f.head? ≠ some '#'

instance : DecidablePred PlainField := fun f =>
  inferInstanceAs (Decidable (f ≠ [] ∧ f.head? ≠ some '#'))

theorem PlainField.escape {f : List Char} (h : PlainField f) : PlainField (escape f) := by
  obtain ⟨hne, hhash⟩ := h
  cases f with
  | nil => exact absurd rfl hne
  | cons c f =>
    refine ⟨by simp [escapeChar]; split_ifs <;> simp, ?_⟩
    rw [head?_escape]
    split_ifs <;> simp_all

theorem PlainField.formatInt (n : Int) : PlainField (GoText.formatInt n) := by
  unfold GoText.formatInt PlainField
  split
  · simp
  · obtain ⟨c, hc, hdigit⟩ := head?_itoa n.toNat
    refine ⟨itoa_ne_nil _, fun h => ?_⟩
    rw [hc, Option.some.injEq] at h
    subst h
    simp at hdigit

theorem isFieldSeparator_of_isDigit {c : Char} (h : c.isDigit = true) :
    isFieldSeparator c = false ∧ c ≠ '\n' := by
  constructor
  · cases hs : isFieldSeparator c with
    | false => rfl
    | true =>
      simp only [isFieldSeparator, Bool.or_eq_true, decide_eq_true_eq] at hs
      rcases hs with rfl | rfl <;> simp at h
  · rintro rfl
    simp at h

theorem isFieldSeparator_formatInt {n : Int} {c : Char} (h : c ∈ GoText.formatInt n) :
    isFieldSeparator c = false ∧ c ≠ '\n' := by
  unfold GoText.formatInt at h
  split at h
  · rcases List.mem_cons.mp h with rfl | h
    · simp [isFieldSeparator]
    · exact isFieldSeparator_of_isDigit (isDigit_of_mem_itoa h)
  · exact isFieldSeparator_of_isDigit (isDigit_of_mem_itoa h)

/-- An entry that `String` writes as a line `ParseMountEntry` reads back: its name, mount point,
type and joined options are plain fields, no option holds a comma, and its numbers fit Go's
`int`. -/
structure MountEntry.Plain (e : MountEntry) : Prop where
  name : PlainField e.name
  dir : PlainField e.dir
  type : PlainField e.type
  options : PlainField ([','].intercalate e.options)
  noComma : ∀ o ∈ e.options, ',' ∉ o
  dumpFrequency : -9223372036854775808 ≤ e.dumpFrequency ∧ e.dumpFrequency ≤ 9223372036854775807
  checkPassNumber :
    -9223372036854775808 ≤ e.checkPassNumber ∧ e.checkPassNumber ≤ 9223372036854775807

instance (e : MountEntry) : Decidable e.Plain :=
  decidable_of_iff (PlainField e.name ∧ PlainField e.dir ∧ PlainField e.type ∧
      PlainField ([','].intercalate e.options) ∧ (∀ o ∈ e.options, ',' ∉ o) ∧
      (-9223372036854775808 ≤ e.dumpFrequency ∧ e.dumpFrequency ≤ 9223372036854775807) ∧
      (-9223372036854775808 ≤ e.checkPassNumber ∧ e.checkPassNumber ≤ 9223372036854775807))
    ⟨fun ⟨h1, h2, h3, h4, h5, h6, h7⟩ => ⟨h1, h2, h3, h4, h5, h6, h7⟩,
      fun ⟨h1, h2, h3, h4, h5, h6, h7⟩ => ⟨h1, h2, h3, h4, h5, h6, h7⟩⟩

/-- The six fields that `String` writes for an entry with a name, a mount point, a type and
options. -/
def MountEntry.plainFields (e : MountEntry) : List (List Char) :=
  [escape e.name, escape e.dir, escape e.type, escape ([','].intercalate e.options),
    GoText.formatInt e.dumpFrequency, GoText.formatInt e.checkPassNumber]

theorem MountEntry.Plain.options_ne_nil {e : MountEntry} (h : e.Plain) : e.options ≠ [] := by
  intro hnil
  exact h.options.1 (by simp [hnil])

theorem MountEntry.Plain.string_eq {e : MountEntry} (h : e.Plain) :
    e.string = [' '].intercalate e.plainFields := by
  simp only [MountEntry.string, MountEntry.plainFields, if_pos h.name.1, if_pos h.dir.1,
    if_pos h.type.1, if_pos h.options_ne_nil]

theorem MountEntry.Plain.plainField {e : MountEntry} (h : e.Plain) :
    ∀ f ∈ e.plainFields, PlainField f := by
  simp only [MountEntry.plainFields, List.mem_cons, List.not_mem_nil, or_false]
  rintro f (rfl | rfl | rfl | rfl | rfl | rfl)
  · exact h.name.escape
  · exact h.dir.escape
  · exact h.type.escape
  · exact h.options.escape
  · exact PlainField.formatInt _
  · exact PlainField.formatInt _

theorem mem_plainFields {e : MountEntry} {f : List Char} (hf : f ∈ e.plainFields) {c : Char}
    (hc : c ∈ f) : isFieldSeparator c = false ∧ c ≠ '\n' := by
  simp only [MountEntry.plainFields, List.mem_cons, List.not_mem_nil, or_false] at hf
  rcases hf with rfl | rfl | rfl | rfl | rfl | rfl
  · exact not_mem_escape hc
  · exact not_mem_escape hc
  · exact not_mem_escape hc
  · exact not_mem_escape hc
  · exact isFieldSeparator_formatInt hc
  · exact isFieldSeparator_formatInt hc

theorem MountEntry.Plain.fieldsBeforeComment {e : MountEntry} (h : e.Plain) :
    fieldsBeforeComment e.string = e.plainFields := by
  rw [h.string_eq, Osutil.fieldsBeforeComment,
    fieldsFunc_intercalate (by rfl) (fun f hf => (h.plainField f hf).1)
      (fun f hf c hc => (mem_plainFields hf hc).1), List.takeWhile_eq_self_iff]
  exact fun f hf => by simpa using (h.plainField f hf).2

theorem MountEntry.Plain.parseMountEntry_string {e : MountEntry} (h : e.Plain) :
    parseMountEntry e.string = .ok e := by
  have hoptions : ([','].intercalate e.options).splitOn ',' = e.options :=
    List.splitOn_intercalate _ (fun o ho => h.noComma o ho) h.options_ne_nil
  simp only [parseMountEntry, h.fieldsBeforeComment, MountEntry.plainFields, List.length_cons,
    List.length_nil]
  simp [unescape_escape, hoptions, atoi_formatInt h.dumpFrequency.1 h.dumpFrequency.2,
    atoi_formatInt h.checkPassNumber.1 h.checkPassNumber.2]

end RoundTrip

end Snapd.Osutil
