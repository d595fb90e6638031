import Snapd.Lib.AssocList
import Snapd.Lib.Regex
import Snapd.Confdb.Databag

/-! Paths of confdb views (`confdb/confdb.go`): `splitViewPath` cuts a path into subkeys at dots
and brackets, `ParsePathIntoAccessors` classifies each subkey by four regular expressions into a
map key, a list index, or a placeholder for either, and `JoinAccessors` writes accessors back as
a path. A `[` ends the subkey before it and starts the next one, a `.` only ends one, and a `[.`
opens a field filter, which attaches to the subkey it ends.

The accessors here are those the parser builds: an index keeps the digits it was written with,
where the databag's `Confdb.Accessor` keeps the number they denote. Paths are read rune by rune,
so they are lists of characters; the error for a byte that is not UTF-8 cannot arise. -/

namespace Snapd.Confdb.Path

/-- `subkeyRegex`: `[a-z](?:-?[a-z0-9])*`. -/
def subkeyRegex : Regex Char :=
  .seq (.cls Char.isLower)
    (.star (.seq (.opt (.char '-')) (.cls fun c => c.isLower || c.isDigit)))

/-- `validSubkey`: `^subkeyRegex$`. -/
def validSubkey (s : List Char) : Bool := subkeyRegex.rmatch s

/-- `validIndexSubkey`: `^\[[0-9]+\]$`. -/
def validIndexSubkey (s : List Char) : Bool :=
  (Regex.seq (.char '[') (.seq (.plus (.cls Char.isDigit)) (.char ']'))).rmatch s

/-- `validPlaceholder`: `^{subkeyRegex}$`. -/
def validPlaceholder (s : List Char) : Bool :=
  (Regex.seq (.char '\x7b') (.seq subkeyRegex (.char '\x7d'))).rmatch s

/-- `validIndexPlaceholder`: `^\[{subkeyRegex}\]$`. -/
def validIndexPlaceholder (s : List Char) : Bool :=
  (Regex.seq (.str ['[', '\x7b']) (.seq subkeyRegex (.str ['\x7d', ']']))).rmatch s

section Regexes

theorem validSubkey_iff {s : List Char} : validSubkey s = true ↔ s ∈ subkeyRegex.lang :=
  Regex.rmatch_iff subkeyRegex s

theorem head_isLower_of_validSubkey {s : List Char} (h : validSubkey s = true) :
    ∃ c t, s = c :: t ∧ c.isLower = true := by
  rw [validSubkey_iff, subkeyRegex, Regex.mem_seq] at h
  obtain ⟨_, ⟨c, hc, rfl⟩, t, -, rfl⟩ := h
  exact ⟨c, t, rfl, hc⟩

theorem chars_of_validSubkey {s : List Char} (h : validSubkey s = true) :
    ∀ c ∈ s, c.isLower = true ∨ c.isDigit = true ∨ c = '-' := by
  rw [validSubkey_iff, subkeyRegex, Regex.mem_seq] at h
  obtain ⟨_, ⟨c₀, hc₀, rfl⟩, t, ht, rfl⟩ := h
  rw [Regex.mem_star] at ht
  obtain ⟨S, rfl, hS⟩ := ht
  intro c hc
  rcases List.mem_cons.mp hc with rfl | hc
  · exact .inl hc₀
  · -- each piece after the first letter is an optional dash and a letter or digit
    obtain ⟨y, hy, hcy⟩ := List.mem_flatten.mp hc
    obtain ⟨hyr, -⟩ := hS y hy
    rw [Regex.mem_seq] at hyr
    obtain ⟨u, hu, v, ⟨x, hx, rfl⟩, rfl⟩ := hyr
    rw [Regex.mem_opt, Regex.mem_char] at hu
    rcases List.mem_append.mp hcy with hcu | hcv
    · rcases hu with rfl | rfl
      · simp at hcu
      · exact .inr (.inr (List.mem_singleton.mp hcu))
    · rw [List.mem_singleton.mp hcv]
      simp only [Bool.or_eq_true] at hx
      rcases hx with hx | hx
      · exact .inl hx
      · exact .inr (.inl hx)

theorem validIndexSubkey_iff {s : List Char} :
    validIndexSubkey s = true ↔
      ∃ d, s = '[' :: d ++ [']'] ∧ d ≠ [] ∧ ∀ c ∈ d, c.isDigit = true := by
  rw [validIndexSubkey, Regex.rmatch_iff]
  simp only [Regex.mem_seq, Regex.mem_char, Regex.mem_plus_cls]
  constructor
  · rintro ⟨_, rfl, _, ⟨d, ⟨hne, hd⟩, _, rfl, rfl⟩, rfl⟩
    exact ⟨d, rfl, hne, hd⟩
  · rintro ⟨d, rfl, hne, hd⟩
    exact ⟨['['], rfl, d ++ [']'], ⟨d, ⟨hne, hd⟩, [']'], rfl, rfl⟩, rfl⟩

theorem validPlaceholder_iff {s : List Char} :
    validPlaceholder s = true ↔ ∃ n, s = '\x7b' :: n ++ ['\x7d'] ∧ validSubkey n = true := by
  rw [validPlaceholder, Regex.rmatch_iff]
  simp only [Regex.mem_seq, Regex.mem_char, ← validSubkey_iff]
  constructor
  · rintro ⟨_, rfl, _, ⟨n, hn, _, rfl, rfl⟩, rfl⟩
    exact ⟨n, rfl, hn⟩
  · rintro ⟨n, rfl, hn⟩
    exact ⟨['\x7b'], rfl, n ++ ['\x7d'], ⟨n, hn, ['\x7d'], rfl, rfl⟩, rfl⟩

theorem validIndexPlaceholder_iff {s : List Char} :
    validIndexPlaceholder s = true ↔
      ∃ n, s = '[' :: '\x7b' :: n ++ ['\x7d', ']'] ∧ validSubkey n = true := by
  rw [validIndexPlaceholder, Regex.rmatch_iff]
  simp only [Regex.mem_seq, Regex.mem_str, ← validSubkey_iff]
  constructor
  · rintro ⟨_, rfl, _, ⟨n, hn, _, rfl, rfl⟩, rfl⟩
    exact ⟨n, rfl, hn⟩
  · rintro ⟨n, rfl, hn⟩
    exact ⟨['[', '\x7b'], rfl, n ++ ['\x7d', ']'], ⟨n, hn, ['\x7d', ']'], rfl, rfl⟩, rfl⟩

end Regexes

inductive AccessorType where
  | mapKey
  | listIndex
  | keyPlaceholder
  | indexPlaceholder
  deriving DecidableEq, Repr

/-- An accessor as `ParsePathIntoAccessors` builds it (`key`, `index`, `keyPlaceholder` or
`indexPlaceholder`): its type, its `Name()`, and its field filters. -/
structure Accessor where
  type : AccessorType
  name : List Char
  fieldFilters : List (List Char × List Char)
  deriving DecidableEq, Repr

/-- `Access()`: the accessor as it is written in a path. -/
def Accessor.access (a : Accessor) : List Char :=
  match a.type with
  | .mapKey => a.name
  | .listIndex => '[' :: a.name ++ [']']
  | .keyPlaceholder => '\x7b' :: a.name ++ ['\x7d']
  | .indexPlaceholder => '[' :: '\x7b' :: a.name ++ ['\x7d', ']']

def dotPrecedesAccessorType (a : Accessor) : Bool :=
  a.type != .indexPlaceholder && a.type != .listIndex

def joinAccessors (parts : List Accessor) : List Char :=
  (parts.zipIdx.map fun x =>
    (if dotPrecedesAccessorType x.1 && x.2 != 0 then ['.'] else []) ++ x.1.access).flatten

structure ParseOptions where
  allowPlaceholders : Bool
  forbidIndexes : Bool
  allowPathSuffix : Bool
  deriving DecidableEq, Repr

/-- `subKey`: a piece split out of a path, with the field filters attached to it. -/
structure SubKey where
  key : List Char
  filters : List (List Char × List Char)
  deriving DecidableEq, Repr

/-- The variables of `splitViewPath`'s loop: the subkeys so far, the filters of the current
subkey, whether only filters may follow, and the current subkey (`sb`). -/
structure SplitState where
  subkeys : List SubKey
  rawFilters : List (List Char × List Char)
  expectFilterOrEnd : Bool
  sb : List Char
  deriving DecidableEq, Repr

def finishSubkey (opts : ParseOptions) (st : SplitState) : Except String SplitState :=
  if st.sb = [] then
    -- we may be parsing a suffix of a path 'foo[2].bar' so allow a path to start with a separator
    if st.subkeys = [] ∧ opts.allowPathSuffix then .ok st
    else .error "cannot have empty subkeys"
  else .ok ⟨st.subkeys ++ [⟨st.sb, st.rawFilters⟩], [], false, []⟩

/-- The `default` case of the loop: the character goes into the current subkey. -/
def writeRune (st : SplitState) (c : Char) : Except String SplitState :=
  if st.expectFilterOrEnd then
    .error "invalid sub-key: field filters, if present, must be at the end of a sub-key"
  else .ok { st with sb := st.sb ++ [c] }

/-- `parseFieldFilter`, on the path after `[.`: the field, the filter, and the path after the
closing `]`. -/
def parseFieldFilter (rest : List Char) :
    Except String (List Char × List Char × List Char) :=
  match rest.span (· != ']') with
  | (_, []) =>
    .error ("field filter terminated unexpectedly: must be in the format " ++
      "[.<field>=\x7b<param_name>\x7d]")
  | (constraintPair, _ :: rest) =>
    match constraintPair.splitOn '=' with
    | [field, value] =>
      if value.head? = some '\x7b' ∧ value.getLast? = some '\x7d' ∧ 2 < value.length then
        .ok (field, (value.drop 1).dropLast, rest)
      else .error "field filter must be in the format [.<field>=\x7b<param_name>\x7d]"
    | _ => .error "field filter must be in the format [.<field>=\x7b<param_name>\x7d]"

/-- What the loop does once the path is read: there should be a subkey to be finished (paths
like "a." are invalid). -/
def splitEnd (opts : ParseOptions) (st : SplitState) : Except String (List SubKey) := do
  let st ← finishSubkey opts st
  pure st.subkeys

/-- The loop of `splitViewPath` over the rest of the path, for at most `fuel` rounds; each round
reads a character, so the length of the path is enough. -/
def splitLoop (opts : ParseOptions) : Nat → SplitState → List Char → Except String (List SubKey)
  | 0, st, _ => splitEnd opts st
  | _ + 1, st, [] => splitEnd opts st
  | fuel + 1, st, '.' :: rest => do
    let st ← finishSubkey opts st
    splitLoop opts fuel st rest
  | fuel + 1, st, '[' :: rest =>
    match rest with
    | [] => .error "invalid subkey \"[\""
    | '.' :: rest => do
      -- a field filter [.foo=\x7bfoo\x7d]
      let (field, filter, rest) ← parseFieldFilter rest
      match AssocList.find st.rawFilters field with
      | some prevFilter =>
        .error ("cannot apply more than one filter to the same field: [." ++
          String.ofList field ++ "=\x7b" ++ String.ofList prevFilter ++ "\x7d] and [." ++
          String.ofList field ++ "=\x7b" ++ String.ofList filter ++ "\x7d]")
      | none =>
        splitLoop opts fuel
          { st with rawFilters := AssocList.insert st.rawFilters field filter,
                    expectFilterOrEnd := true } rest
    | c :: rest => do
      -- a new list accessor: the '[' ends the subkey before it and starts the next one
      let st ← finishSubkey opts st
      let st ← writeRune st '['
      splitLoop opts fuel st (c :: rest)
  | fuel + 1, st, c :: rest => do
    let st ← writeRune st c
    splitLoop opts fuel st rest

def splitViewPath (path : List Char) (opts : ParseOptions) : Except String (List SubKey) :=
  splitLoop opts path.length ⟨[], [], false, []⟩ path

/-- `s[lo:hi]` -/
def slice (s : List Char) (lo hi : Nat) : List Char := (s.take hi).drop lo

/-- The body of `ParsePathIntoAccessors`'s loop: one subkey classified into an accessor. -/
def parsePart (opts : ParseOptions) (part : SubKey) : Except String Accessor :=
  let subkey := part.key
  let isKey := validSubkey subkey
  let isIndex := validIndexSubkey subkey
  let isKeyPlaceholder := validPlaceholder subkey
  let isIndexPlaceholder := validIndexPlaceholder subkey
  match part.filters.find? fun f => !validSubkey f.1 || !validSubkey f.2 with
  | some (field, filter) =>
    .error ("invalid field filter [." ++ String.ofList field ++ "=\x7b" ++ String.ofList filter ++
      "\x7d]: both field and placeholder name must conform to ^[a-z](?:-?[a-z0-9])*$")
  | none =>
    if isKey then .ok ⟨.mapKey, subkey, part.filters⟩
    else if isIndex then
      if opts.forbidIndexes then
        .error ("invalid subkey " ++ quote (String.ofList subkey) ++
          ": view paths cannot have literal indexes (only index placeholders)")
      else .ok ⟨.listIndex, slice subkey 1 (subkey.length - 1), part.filters⟩
    else if !opts.allowPlaceholders then
      -- user supplied paths cannot contain placeholders
      .error ("invalid subkey " ++ quote (String.ofList subkey) ++
        if isKeyPlaceholder || isIndexPlaceholder then
          ": path only supports literal keys and indexes" else "")
    else if isKeyPlaceholder then
      .ok ⟨.keyPlaceholder, slice subkey 1 (subkey.length - 1), part.filters⟩
    else if isIndexPlaceholder then
      .ok ⟨.indexPlaceholder, slice subkey 2 (subkey.length - 2), part.filters⟩
    else
      .error ("subkey " ++ quote (String.ofList subkey) ++
        " must conform to base format \"[a-z](?:-?[a-z0-9])*\"")

def parsePathIntoAccessors (path : List Char) (opts : ParseOptions) :
    Except String (List Accessor) :=
  if path = [] then .ok []
  else do
    let pathParts ← splitViewPath path opts
    pathParts.mapM (parsePart opts)

example : parsePathIntoAccessors "a[1].b[\x7bn\x7d].\x7bk\x7d".toList ⟨true, false, false⟩ =
    .ok [⟨.mapKey, ['a'], []⟩, ⟨.listIndex, ['1'], []⟩, ⟨.mapKey, ['b'], []⟩,
      ⟨.indexPlaceholder, ['n'], []⟩, ⟨.keyPlaceholder, ['k'], []⟩] := by decide

end Snapd.Confdb.Path
