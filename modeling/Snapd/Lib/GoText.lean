import Mathlib.Data.List.Basic
import Mathlib.Data.Int.DivMod
import Mathlib.Tactic.IntervalCases

/-! Text functions of Go's standard library on strings read as lists of characters:
`strings.Split` with a separator of several characters and `strings.SplitN` with one,
`strings.FieldsFunc` and `strings.TrimSpace`, the decimal numbers of `strconv` and `fmt`, and
the lines `bufio.Scanner` reads. `strings.Split` with a one-character separator is
`List.splitOn`, and `strings.Join` is `List.intercalate`. -/

namespace GoText

/-- The loop of `splitSep`, reading at most `fuel` characters. -/
def splitSepLoop (sep : List Char) : Nat → List Char → List Char → List (List Char)
  | 0, cur, s => [cur ++ s]
  | _ + 1, cur, [] => [cur]
  | fuel + 1, cur, c :: s =>
    if sep.isPrefixOf (c :: s) then cur :: splitSepLoop sep fuel [] ((c :: s).drop sep.length)
    else splitSepLoop sep fuel (cur ++ [c]) s

/-- `strings.Split(s, sep)` for a non-empty separator: the parts between the occurrences of
`sep` found from the left, none overlapping the one before. -/
def splitSep (sep s : List Char) : List (List Char) := splitSepLoop sep (s.length + 1) [] s

/-- `strings.SplitN(s, sep, n)` for `n ≥ 0`: at most `n` parts, the last one the rest of `s`. -/
def splitN (sep : Char) : List Char → Nat → List (List Char)
  | _, 0 => []
  | s, 1 => [s]
  | s, n + 2 =>
    if sep ∈ s then s.takeWhile (· ≠ sep) :: splitN sep (s.dropWhile (· ≠ sep)).tail (n + 1)
    else [s]

theorem takeWhile_append_cons {sep : Char} {a : List Char} (ha : sep ∉ a) (b : List Char) :
    (a ++ sep :: b).takeWhile (· ≠ sep) = a := by
  induction a with
  | nil => simp
  | cons c a ih =>
    have hc : c ≠ sep := fun h => ha (h ▸ List.mem_cons_self)
    rw [List.cons_append, List.takeWhile_cons_of_pos (by simpa using hc),
      ih (fun h => ha (List.mem_cons_of_mem c h))]

theorem dropWhile_append_cons {sep : Char} {a : List Char} (ha : sep ∉ a) (b : List Char) :
    (a ++ sep :: b).dropWhile (· ≠ sep) = sep :: b := by
  induction a with
  | nil => simp
  | cons c a ih =>
    have hc : c ≠ sep := fun h => ha (h ▸ List.mem_cons_self)
    rw [List.cons_append, List.dropWhile_cons_of_pos (by simpa using hc),
      ih (fun h => ha (List.mem_cons_of_mem c h))]

theorem splitN_two {sep : Char} {a : List Char} (ha : sep ∉ a) (b : List Char) :
    splitN sep (a ++ sep :: b) 2 = [a, b] := by
  simp only [splitN, List.mem_append, List.mem_cons_self, or_true, if_true,
    takeWhile_append_cons ha, dropWhile_append_cons ha, List.tail_cons]

theorem intercalate_append {α : Type} {sep : List α} :
    ∀ {xs ys : List (List α)}, xs ≠ [] → ys ≠ [] →
      sep.intercalate (xs ++ ys) = sep.intercalate xs ++ sep ++ sep.intercalate ys
  | [], _, hx, _ => absurd rfl hx
  | [x], y :: ys, _, _ => by
    rw [List.singleton_append, List.intercalate_cons_cons, List.intercalate_singleton]
  | x :: x' :: xs, ys, _, hy => by
    rw [List.cons_append, List.cons_append, List.intercalate_cons_cons, ← List.cons_append,
      intercalate_append (List.cons_ne_nil x' xs) hy, List.intercalate_cons_cons]
    simp only [List.append_assoc]

theorem splitOn_of_length_le_one {c : Char} {s : List Char} (h : ¬ (s.splitOn c).length > 1) :
    s.splitOn c = [s] := by
  obtain ⟨x, hx⟩ : ∃ x, s.splitOn c = [x] := by
    match hs : s.splitOn c, List.splitOn_ne_nil c s with
    | [x], _ => exact ⟨x, rfl⟩
    | x :: y :: rest, _ => rw [hs] at h; simp at h
  have hjoin := @List.intercalate_splitOn _ s _ _ c
  rw [hx, List.intercalate_singleton] at hjoin
  rw [hx, hjoin]

theorem splitOn_of_not_mem {c : Char} {a : List Char} (ha : c ∉ a) : a.splitOn c = [a] := by
  have h := @List.splitOn_intercalate _ [a] _ _ c (by simpa using ha) (List.cons_ne_nil _ _)
  rwa [List.intercalate_singleton] at h

theorem splitOn_append_cons {c : Char} {a b : List Char} (ha : c ∉ a) (hb : c ∉ b) :
    (a ++ c :: b).splitOn c = [a, b] := by
  have h := @List.splitOn_intercalate _ [a, b] _ _ c (by simp [ha, hb]) (List.cons_ne_nil _ _)
  rwa [List.intercalate_cons_cons, List.intercalate_singleton, List.append_assoc,
    List.singleton_append] at h

def trimSuffix (s suffix : List Char) : List Char :=
  if suffix.isSuffixOf s then s.take (s.length - suffix.length) else s

/-- The value of a decimal digit. -/
def digitValue (c : Char) : Nat := c.toNat - '0'.toNat

/-- The number that a string of decimal digits spells. -/
def decimalValue (s : List Char) : Nat := s.foldl (fun acc c => 10 * acc + digitValue c) 0

/-- A non-empty string of decimal digits read as a number: `strconv.ParseUint(s, 10, ·)`
before its range check, and `strconv.Atoi` on digits. -/
def readDecimal (s : List Char) : Option Nat :=
  if s ≠ [] ∧ s.all Char.isDigit then some (decimalValue s) else none

/-- `strconv.ParseUint(s, 10, bitSize)`, `none` for each of its errors. -/
def parseUint (s : List Char) (bitSize : Nat) : Option Nat := do
  let v ← readDecimal s
  if v < 2 ^ bitSize then some v else none

/-- `strconv.Itoa` of a number that is not negative. -/
def itoa (n : Nat) : List Char := Nat.toDigits 10 n

/-- `fmt.Sprintf("%02d", n)`: zeros in front up to two characters, the sign counted. -/
def sprintf02d (n : Int) : List Char :=
  if n < 0 then '-' :: itoa n.natAbs
  else if n < 10 then '0' :: itoa n.toNat
  else itoa n.toNat

/-- `%q` of a string with no quote or escape in it. -/
def quote (s : List Char) : String := "\"" ++ String.ofList s ++ "\""

theorem digitValue_digitChar {d : Nat} (h : d < 10) : digitValue (Nat.digitChar d) = d := by
  interval_cases d <;> rfl

theorem isDigit_digitChar {d : Nat} (h : d < 10) : (Nat.digitChar d).isDigit = true := by
  interval_cases d <;> rfl

theorem decimalValue_append_singleton (s : List Char) (c : Char) :
    decimalValue (s ++ [c]) = 10 * decimalValue s + digitValue c := by
  simp [decimalValue, List.foldl_append]

theorem itoa_eq (n : Nat) :
    itoa n = (if n < 10 then [] else itoa (n / 10)) ++ [Nat.digitChar (n % 10)] := by
  unfold itoa
  rw [Nat.toDigits_eq_if (by omega)]
  split
  · rename_i h
    simp [Nat.mod_eq_of_lt h]
  · rfl

theorem itoa_of_lt {n : Nat} (h : n < 10) : itoa n = [Nat.digitChar n] :=
  Nat.toDigits_of_lt_base h

theorem isDigit_of_mem_itoa {n : Nat} : ∀ {c : Char}, c ∈ itoa n → c.isDigit = true := by
  induction n using Nat.strongRecOn with
  | ind n ih =>
    intro c hc
    rw [itoa_eq, List.mem_append, List.mem_singleton] at hc
    rcases hc with hc | rfl
    · split at hc
      · simp at hc
      · exact ih (n / 10) (by omega) hc
    · exact isDigit_digitChar (Nat.mod_lt _ (by omega))

theorem itoa_ne_nil (n : Nat) : itoa n ≠ [] := by
  rw [itoa_eq]
  simp

theorem decimalValue_itoa (n : Nat) : decimalValue (itoa n) = n := by
  induction n using Nat.strongRecOn with
  | ind n ih =>
    have hdigit : digitValue (Nat.digitChar (n % 10)) = n % 10 :=
      digitValue_digitChar (Nat.mod_lt _ (by omega))
    rw [itoa_eq, decimalValue_append_singleton, hdigit]
    split
    · rename_i h
      simp [decimalValue, Nat.mod_eq_of_lt h]
    · rw [ih (n / 10) (by omega)]
      omega

theorem readDecimal_itoa (n : Nat) : readDecimal (itoa n) = some n := by
  have hdigits : (itoa n).all Char.isDigit = true :=
    List.all_eq_true.mpr fun _ hc => isDigit_of_mem_itoa hc
  simp [readDecimal, itoa_ne_nil, hdigits, decimalValue_itoa]

theorem parseUint_itoa {n bitSize : Nat} (h : n < 2 ^ bitSize) :
    parseUint (itoa n) bitSize = some n := by
  simp [parseUint, readDecimal_itoa, h]

theorem parseUint_eq_some {s : List Char} {bitSize v : Nat} (h : parseUint s bitSize = some v) :
    readDecimal s = some v ∧ v < 2 ^ bitSize := by
  simp only [parseUint, Option.bind_eq_bind, Option.bind_eq_some_iff] at h
  obtain ⟨w, hw, hv⟩ := h
  split at hv
  · cases hv
    exact ⟨hw, by assumption⟩
  · cases hv

theorem sprintf02d_of_lt {n : Int} (h0 : 0 ≤ n) (h : n < 100) :
    sprintf02d n = [Nat.digitChar (n.toNat / 10), Nat.digitChar (n.toNat % 10)] := by
  have hnot : ¬ n < 0 := by omega
  simp only [sprintf02d, hnot, if_false]
  split
  · rename_i hlt
    have hn : n.toNat < 10 := by omega
    rw [itoa_of_lt hn, Nat.div_eq_of_lt hn, Nat.mod_eq_of_lt hn]
    rfl
  · rename_i hge
    have hn : n.toNat / 10 < 10 := by omega
    rw [itoa_eq, if_neg (by omega), itoa_of_lt hn]
    rfl

/-- `unicode.IsSpace`: in Latin-1 the tab, newline, vertical tab, form feed, carriage return,
space, next line and no-break space; above it the characters of Unicode's `White_Space`. -/
def isSpace (c : Char) : Bool :=
  if c.toNat ≤ 0xFF then
    c = '\t' || c = '\n' || c.toNat = 0x0B || c.toNat = 0x0C || c = '\r' || c = ' ' ||
      c.toNat = 0x85 || c.toNat = 0xA0
  else
    c.toNat = 0x1680 || (0x2000 ≤ c.toNat && c.toNat ≤ 0x200A) || c.toNat = 0x2028 ||
      c.toNat = 0x2029 || c.toNat = 0x202F || c.toNat = 0x205F || c.toNat = 0x3000

theorem isSpace_of_isDigit {c : Char} (h : c.isDigit = true) : isSpace c = false := by
  simp only [Char.isDigit, Bool.and_eq_true, decide_eq_true_eq] at h
  have hlo : 48 ≤ c.toNat := h.1
  have hhi : c.toNat ≤ 57 := h.2
  have hne : ∀ d : Char, d.toNat < 48 → c ≠ d := fun d hd hcd => by
    subst hcd
    omega
  simp only [isSpace, if_pos (show c.toNat ≤ 0xFF by omega), hne '\t' (by decide),
    hne '\n' (by decide), hne '\r' (by decide), hne ' ' (by decide), decide_false,
    Bool.false_or, Bool.or_eq_false_iff, decide_eq_false_iff_not, and_true]
  and_intros <;> omega

def trimSpace (s : List Char) : List Char :=
  ((s.dropWhile isSpace).reverse.dropWhile isSpace).reverse

theorem dropWhile_eq_self {p : Char → Bool} {s : List Char} (h : ∀ c ∈ s.head?, p c = false) :
    s.dropWhile p = s := by
  cases s with
  | nil => rfl
  | cons c s => exact List.dropWhile_cons_of_neg (by simpa using h c rfl)

theorem trimSpace_eq_self {s : List Char} (hhead : ∀ c ∈ s.head?, isSpace c = false)
    (hlast : ∀ c ∈ s.getLast?, isSpace c = false) : trimSpace s = s := by
  rw [trimSpace, dropWhile_eq_self hhead, dropWhile_eq_self (by rwa [List.head?_reverse]),
    List.reverse_reverse]

/-- `strings.FieldsFunc(s, f)`: the non-empty runs of characters that `f` does not hold of. -/
def fieldsFunc (f : Char → Bool) (s : List Char) : List (List Char) :=
  (s.splitOnP f).filter fun x => !x.isEmpty

theorem fieldsFunc_intercalate {f : Char → Bool} {sep : Char} (hsep : f sep = true) :
    ∀ {fields : List (List Char)}, (∀ x ∈ fields, x ≠ []) → (∀ x ∈ fields, ∀ c ∈ x, f c = false) →
      fieldsFunc f ([sep].intercalate fields) = fields
  | [], _, _ => by simp [fieldsFunc]
  | [x], hne, hf => by
    simp [fieldsFunc, List.splitOnP_eq_singleton (hf x List.mem_cons_self), hne x List.mem_cons_self]
  | x :: y :: rest, hne, hf => by
    have ih := @fieldsFunc_intercalate f sep hsep (y :: rest)
      (fun z hz => hne z (List.mem_cons_of_mem x hz)) (fun z hz => hf z (List.mem_cons_of_mem x hz))
    rw [fieldsFunc] at ih ⊢
    rw [List.intercalate_cons_cons, List.append_assoc, List.singleton_append,
      List.splitOnP_append_cons_of_forall_mem (hf x List.mem_cons_self) sep hsep, List.filter_cons,
      ih]
    simp [hne x List.mem_cons_self]

theorem mem_intercalate {α : Type} {sep : List α} {c : α} :
    ∀ {ls : List (List α)}, c ∈ sep.intercalate ls → c ∈ sep ∨ ∃ l ∈ ls, c ∈ l
  | [], h => by simp at h
  | [x], h => .inr ⟨x, List.mem_singleton_self x, by simpa using h⟩
  | x :: y :: rest, h => by
    rw [List.intercalate_cons_cons, List.mem_append, List.mem_append] at h
    rcases h with (h | h) | h
    · exact .inr ⟨x, List.mem_cons_self, h⟩
    · exact .inl h
    · rcases mem_intercalate h with h | ⟨l, hl, hc⟩
      · exact .inl h
      · exact .inr ⟨l, List.mem_cons_of_mem x hl, hc⟩

/-- `strconv.Atoi` for a 64-bit `int`: an optional sign, then decimal digits whose value is
within `math.MinInt64` and `math.MaxInt64`; `none` for each of its errors. -/
def atoi (s : List Char) : Option Int :=
  if s.head? = some '-' then
    (readDecimal s.tail).bind fun v => if v ≤ 9223372036854775808 then some (-(v : Int)) else none
  else
    (readDecimal (if s.head? = some '+' then s.tail else s)).bind fun v =>
      if v ≤ 9223372036854775807 then some (v : Int) else none

/-- `fmt`'s `%d` of an integer. -/
def formatInt (n : Int) : List Char :=
  if n < 0 then '-' :: itoa n.natAbs else itoa n.toNat

theorem head?_itoa (n : Nat) : ∃ c, (itoa n).head? = some c ∧ c.isDigit = true := by
  cases h : itoa n with
  | nil => exact absurd h (itoa_ne_nil n)
  | cons c s => exact ⟨c, rfl, isDigit_of_mem_itoa (h ▸ List.mem_cons_self)⟩

theorem atoi_formatInt {n : Int} (hlo : -9223372036854775808 ≤ n) (hhi : n ≤ 9223372036854775807) :
    atoi (formatInt n) = some n := by
  unfold formatInt
  split
  · rename_i hneg
    have hle : n.natAbs ≤ 9223372036854775808 := by omega
    simp only [atoi, List.head?_cons, if_true, List.tail_cons, readDecimal_itoa, Option.bind_some,
      if_pos hle]
    rw [Int.ofNat_natAbs_of_nonpos (le_of_lt hneg), neg_neg]
  · rename_i hnonneg
    obtain ⟨c, hc, hdigit⟩ := head?_itoa n.toNat
    have hminus : c ≠ '-' := fun h => by simp [h] at hdigit
    have hplus : c ≠ '+' := fun h => by simp [h] at hdigit
    have hle : n.toNat ≤ 9223372036854775807 := by omega
    simp [atoi, hc, hminus, hplus, readDecimal_itoa, hle]
    omega

theorem getLast?_formatInt (n : Int) : ∃ c, (formatInt n).getLast? = some c ∧ c.isDigit = true := by
  have hdigits : ∀ m, ∃ c, (itoa m).getLast? = some c ∧ c.isDigit = true := fun m => by
    rw [itoa_eq]
    exact ⟨Nat.digitChar (m % 10), by simp, isDigit_digitChar (Nat.mod_lt _ (by omega))⟩
  unfold formatInt
  split
  · obtain ⟨c, hc, hd⟩ := hdigits n.natAbs
    refine ⟨c, ?_, hd⟩
    rw [List.getLast?_cons, hc]
    rfl
  · exact hdigits n.toNat

/-- `bufio.MaxScanTokenSize`, the largest buffer of a `Scanner`. -/
def maxScanTokenSize : Nat := 64 * 1024

/-- The length of a string in bytes, in UTF-8. -/
def utf8Length (s : List Char) : Nat := s.foldr (fun c n => c.utf8Size + n) 0

/-- `dropCR`: a line without the one carriage return at its end. -/
def dropCR (s : List Char) : List Char :=
  if s.getLast? = some '\r' then s.dropLast else s

/-- The tokens of `bufio.Scanner` split by `ScanLines`: the text cut at each newline, with no
final empty piece, each without a carriage return at its end; `none` in place of a line that,
with one more byte, does not fit the largest buffer, where `Scan` stops with `ErrTooLong`. -/
def scanLines (text : List Char) : List (Option (List Char)) :=
  let pieces := text.splitOn '\n'
  (if pieces.getLast? = some [] then pieces.dropLast else pieces).map fun line =>
    if utf8Length line < maxScanTokenSize then some (dropCR line) else none

theorem flatMap_append_singleton (sep : Char) :
    ∀ lines : List (List Char), lines.flatMap (· ++ [sep]) = [sep].intercalate (lines ++ [[]])
  | [] => rfl
  | line :: lines => by
    rw [List.flatMap_cons, flatMap_append_singleton sep lines, List.cons_append,
      List.intercalate_cons_of_ne_nil (by simp)]

/-- Lines written each with a newline after it are read back, when they have no newline in
them, fit the buffer and do not end with a carriage return. -/
theorem scanLines_flatMap {lines : List (List Char)}
    (h : ∀ line ∈ lines, '\n' ∉ line ∧ utf8Length line < maxScanTokenSize ∧ dropCR line = line) :
    scanLines (lines.flatMap (· ++ ['\n'])) = lines.map some := by
  have hsplit : (lines.flatMap (· ++ ['\n'])).splitOn '\n' = lines ++ [[]] := by
    rw [flatMap_append_singleton]
    refine List.splitOn_intercalate _ (fun l hl => ?_) (by simp)
    rcases List.mem_append.mp hl with hl | hl
    · exact (h l hl).1
    · rw [List.mem_singleton.mp hl]
      exact List.not_mem_nil
  simp only [scanLines, hsplit, List.getLast?_append, List.getLast?_singleton, Option.some_or,
    if_true, List.dropLast_concat]
  exact List.map_congr_left fun line hline => by simp [(h line hline).2.1, (h line hline).2.2]

end GoText
