import Snapd.Lib.Regex
import Mathlib.Data.List.Sort
import Mathlib.Data.List.Lex
import Mathlib.Data.Char

/-! The text format of assertion headers (asserts/headers.go): `appendEntry` writes a header value
after its name, and `parseHeaders` reads the header block back. A value is a string, or a list
or map of values; a string with a newline in it is written over several lines indented four more
spaces, a list as one line per element introduced by "-", and a map as one line per key. Go
strings are lists of characters here. A Go map is given by its entries in increasing key order,
which is the order `appendEntry` sorts the keys into; assigning a key inserts the entry in that
order. -/

namespace Snapd.Asserts

/-- A header value as `checkHeader` accepts them: strings, and lists and maps of header values. -/
inductive HeaderValue
  | str (s : List Char)
  | list (vs : List HeaderValue)
  | map (entries : List (List Char × HeaderValue))
  deriving Repr

mutual

def HeaderValue.decEq : (a b : HeaderValue) → Decidable (a = b)
  | .str s, .str t =>
    if h : s = t then isTrue (h ▸ rfl) else isFalse fun e => h (HeaderValue.str.inj e)
  | .list xs, .list ys =>
    match HeaderValue.decEqList xs ys with
    | isTrue h => isTrue (h ▸ rfl)
    | isFalse h => isFalse fun e => h (HeaderValue.list.inj e)
  | .map m, .map n =>
    match HeaderValue.decEqEntries m n with
    | isTrue h => isTrue (h ▸ rfl)
    | isFalse h => isFalse fun e => h (HeaderValue.map.inj e)
  | .str _, .list _ | .str _, .map _ | .list _, .str _ | .list _, .map _ | .map _, .str _
  | .map _, .list _ => isFalse nofun

def HeaderValue.decEqList : (xs ys : List HeaderValue) → Decidable (xs = ys)
  | [], [] => isTrue rfl
  | [], _ :: _ | _ :: _, [] => isFalse nofun
  | x :: xs, y :: ys =>
    match HeaderValue.decEq x y, HeaderValue.decEqList xs ys with
    | isTrue hx, isTrue hxs => isTrue (hx ▸ hxs ▸ rfl)
    | isFalse hx, _ => isFalse fun e => hx (List.cons.inj e).1
    | _, isFalse hxs => isFalse fun e => hxs (List.cons.inj e).2

def HeaderValue.decEqEntries : (m n : List (List Char × HeaderValue)) → Decidable (m = n)
  | [], [] => isTrue rfl
  | [], _ :: _ | _ :: _, [] => isFalse nofun
  | (k, x) :: m, (l, y) :: n =>
    if hk : k = l then
      match HeaderValue.decEq x y, HeaderValue.decEqEntries m n with
      | isTrue hx, isTrue hm => isTrue (hk ▸ hx ▸ hm ▸ rfl)
      | isFalse hx, _ => isFalse fun e => hx (Prod.mk.inj (List.cons.inj e).1).2
      | _, isFalse hm => isFalse fun e => hm (List.cons.inj e).2
    else isFalse fun e => hk (Prod.mk.inj (List.cons.inj e).1).1

end

instance : DecidableEq HeaderValue := HeaderValue.decEq

/-- `headerNameValidity`, the regular expression `^[a-z](?:-?[a-z0-9])*$`. -/
def headerNameValidity : Regex Char :=
  .seq (.cls fun c => decide ('a' ≤ c ∧ c ≤ 'z'))
    (.star (.seq (.opt (.char '-')) (.cls fun c => decide ('a' ≤ c ∧ c ≤ 'z' ∨ '0' ≤ c ∧ c ≤ '9'))))

def commonPrefix : List Char := [' ', ' ']

def multilinePrefix : List Char := [' ', ' ', ' ', ' ']

def listChar : List Char := ['-']

def listPrefix : List Char := commonPrefix ++ listChar

def nestingPrefix (baseIndent : Nat) (pfx : List Char) : List Char :=
  List.replicate baseIndent ' ' ++ pfx

/-- Go's `%q` of a string, without its escapes. -/
def quote (s : List Char) : String := "\"" ++ String.ofList s ++ "\""

/-- A map entry assigned, `m[key] = value`. -/
def insertEntry (key : List Char) (value : HeaderValue) (m : List (List Char × HeaderValue)) :
    List (List Char × HeaderValue) :=
  m.orderedInsert (fun a b => a.1 ≤ b.1) (key, value)

section Encode

mutual

/-- `appendEntry`: the text written for a value introduced by `intro`, empty for an empty list or
map, which are simply omitted. -/
def appendEntry (intro : List Char) : HeaderValue → Nat → List Char
  | .str x, baseIndent =>
    if '\n' ∈ x then
      -- a multiline value is quoted by indenting it four spaces more
      let pfx := nestingPrefix baseIndent multilinePrefix
      '\n' :: intro ++ '\n' :: pfx ++ x.flatMap fun c => if c = '\n' then '\n' :: pfx else [c]
    else '\n' :: intro ++ ' ' :: x
  | .list xs, baseIndent =>
    match xs with
    | [] => []
    | _ :: _ =>
      '\n' :: intro ++
        appendListEntries (nestingPrefix baseIndent listPrefix) xs
          (baseIndent + listPrefix.length - 1)
  | .map entries, baseIndent =>
    match entries with
    | [] => []
    | _ :: _ => '\n' :: intro ++ appendMapEntries (nestingPrefix baseIndent commonPrefix) entries

/-- The elements of a list, each introduced by `pfx`. -/
def appendListEntries (pfx : List Char) : List HeaderValue → Nat → List Char
  | [], _ => []
  | v :: vs, baseIndent => appendEntry pfx v baseIndent ++ appendListEntries pfx vs baseIndent

/-- The entries of a map in key order, each introduced by `pfx`, its key and ":". -/
def appendMapEntries (pfx : List Char) : List (List Char × HeaderValue) → List Char
  | [] => []
  | (key, v) :: rest => appendEntry (pfx ++ key ++ [':']) v pfx.length ++ appendMapEntries pfx rest

end

/-- The header block `assembleAndSign` writes: "type: " and the type's name, then each header
named in `order` by `writeHeader`; a name with no value is omitted. -/
def writeHeaders (typeName : List Char) (headers : List (List Char × HeaderValue))
    (order : List (List Char)) : List Char :=
  "type: ".toList ++ typeName ++ order.flatMap fun name =>
    match headers.lookup name with
    | some v => appendEntry (name ++ [':']) v 0
    | none => []

end Encode

section Parse

/-- What the model returns when its fuel runs out; `parseHeaders` gives enough that it does not
on the blocks `writeHeaders` writes. -/
def outOfFuel : String := "header parsing ran out of fuel"

/-- `parseMultilineText`: the lines after `intro` indented four more spaces, joined. -/
def parseMultilineText (intro : List Char) (lines : List (List Char)) (baseIndent : Nat) :
    Except String (HeaderValue × List (List Char)) :=
  let pfx := nestingPrefix baseIndent multilinePrefix
  let block := lines.takeWhile pfx.isPrefixOf
  match block with
  | [] =>
    let cur := match lines with
      | [] => "EOF"
      | line :: _ => quote line
    .error ("expected " ++ toString pfx.length ++ " chars nesting prefix after multiline introduction "
      ++ quote intro ++ ": " ++ cur)
  | _ :: _ =>
    .ok (.str (['\n'].intercalate (block.map (·.drop pfx.length))), lines.drop block.length)

mutual

/-- `parseEntry` on the line `entry`, whose first `consumedByIntro` characters introduce the
value, followed by the lines `rest`: the value, and the lines after it. -/
def parseEntry : Nat → Nat → List Char → List (List Char) → Nat →
    Except String (HeaderValue × List (List Char))
  | 0, _, _, _, _ => .error outOfFuel
  | fuel + 1, consumedByIntro, entry, rest, baseIndent =>
    if consumedByIntro = entry.length then
      -- multiline values: a list, a map or indented text, by the line after
      let basePrefix := nestingPrefix baseIndent commonPrefix
      match rest with
      | line :: _ =>
        if basePrefix.isPrefixOf line then
          let r := line.drop basePrefix.length
          if listChar.isPrefixOf r then parseList fuel rest baseIndent []
          else if r.head?.isSome ∧ r.head? ≠ some ' ' then parseMap fuel rest baseIndent []
          else parseMultilineText entry rest baseIndent
        else parseMultilineText entry rest baseIndent
      | [] => parseMultilineText entry rest baseIndent
    else if entry[consumedByIntro]? ≠ some ' ' then
      .error ("header entry should have a space or newline (for multiline) before value: " ++
        quote entry)
    else .ok (.str (entry.drop (consumedByIntro + 1)), rest)

/-- `parseList`, with the elements `lst` read so far. -/
def parseList : Nat → List (List Char) → Nat → List HeaderValue →
    Except String (HeaderValue × List (List Char))
  | 0, _, _, _ => .error outOfFuel
  | fuel + 1, lines, baseIndent, lst =>
    let pfx := nestingPrefix baseIndent listPrefix
    match lines with
    | [] => .ok (.list lst, [])
    | line :: rest =>
      if pfx.isPrefixOf line then
        match parseEntry fuel pfx.length line rest (baseIndent + listPrefix.length - 1) with
        | .ok (v, after) => parseList fuel after baseIndent (lst ++ [v])
        | .error e => .error e
      else .ok (.list lst, lines)

/-- `parseMap`, with the entries `m` read so far. -/
def parseMap : Nat → List (List Char) → Nat → List (List Char × HeaderValue) →
    Except String (HeaderValue × List (List Char))
  | 0, _, _, _ => .error outOfFuel
  | fuel + 1, lines, baseIndent, m =>
    let pfx := nestingPrefix baseIndent commonPrefix
    match lines with
    | [] => .ok (.map m, [])
    | line :: rest =>
      if pfx.isPrefixOf line then
        let entry := line.drop pfx.length
        match entry.idxOf? ':' with
        | none => .error ("map entry missing ':' separator: " ++ quote entry)
        | some keyValueSplit =>
          let key := entry.take keyValueSplit
          if headerNameValidity.rmatch key = false then
            .error ("invalid map entry key: " ++ quote key)
          else
            match parseEntry fuel (pfx.length + keyValueSplit + 1) line rest pfx.length with
            | .error e => .error e
            | .ok (value, after) =>
              if (m.lookup key).isSome then .error ("repeated map entry: " ++ quote key)
              else parseMap fuel after baseIndent (insertEntry key value m)
      else .ok (.map m, lines)

end

/-- The loop of `parseHeaders` over the header lines, with the headers `headers` read so far. -/
def parseHeaderLines : Nat → List (List Char) → List (List Char × HeaderValue) →
    Except String (List (List Char × HeaderValue))
  | 0, _, _ => .error outOfFuel
  | _ + 1, [], headers => .ok headers
  | fuel + 1, entry :: rest, headers =>
    match entry.idxOf? ':' with
    | none => .error ("header entry missing ':' separator: " ++ quote entry)
    | some nameValueSplit =>
      let name := entry.take nameValueSplit
      if headerNameValidity.rmatch name = false then .error ("invalid header name: " ++ quote name)
      else
        match parseEntry fuel (nameValueSplit + 1) entry rest 0 with
        | .error e => .error e
        | .ok (value, after) =>
          if (headers.lookup name).isSome then .error ("repeated header: " ++ quote name)
          else parseHeaderLines fuel after (insertEntry name value headers)

/-- `parseHeaders`; the check that the block is UTF-8 holds of characters. -/
def parseHeaders (head : List Char) : Except String (List (List Char × HeaderValue)) :=
  let lines := head.splitOn '\n'
  parseHeaderLines (2 * lines.length + 2) lines []

end Parse

end Snapd.Asserts
