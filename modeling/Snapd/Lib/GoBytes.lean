import Mathlib.Data.List.Basic
import Mathlib.Algebra.Group.Nat.Defs
import Mathlib.Logic.Function.Iterate

/-! Byte-slice functions of Go's standard library on lists: little-endian words of
`encoding/binary`, the IEEE checksum of `hash/crc32`, `bytes.Index`, and `strings.SplitN` on a
one-byte separator. `bytes.Split` with a one-byte separator is `List.splitOn`, and writing parts
each followed by a separator is an intercalation. -/

namespace GoBytes

/-- `binary.LittleEndian.PutUint32`: the four bytes of a word, the least significant first. -/
def putUint32 (u : UInt32) : List UInt8 :=
  [UInt8.ofNat u.toNat, UInt8.ofNat (u.toNat / 2 ^ 8), UInt8.ofNat (u.toNat / 2 ^ 16),
    UInt8.ofNat (u.toNat / 2 ^ 24)]

/-- `binary.LittleEndian.Uint32` of the first four bytes. -/
def uint32 : List UInt8 → UInt32
  | b0 :: b1 :: b2 :: b3 :: _ =>
    UInt32.ofNat (b0.toNat + 2 ^ 8 * b1.toNat + 2 ^ 16 * b2.toNat + 2 ^ 24 * b3.toNat)
  | _ => 0

@[simp] theorem length_putUint32 (u : UInt32) : (putUint32 u).length = 4 := rfl

theorem uint32_putUint32_append (u : UInt32) (rest : List UInt8) :
    uint32 (putUint32 u ++ rest) = u := by
  apply UInt32.toNat_inj.mp
  have hu := u.toNat_lt
  simp only [putUint32, List.cons_append, List.nil_append, uint32, UInt32.toNat_ofNat',
    UInt8.toNat_ofNat']
  omega

/-- One bit of the reflected IEEE polynomial division. -/
def crcStep (crc : UInt32) : UInt32 :=
  if crc &&& 1 = 1 then (crc >>> 1) ^^^ 0xEDB88320 else crc >>> 1

/-- One byte of the checksum: the byte in, then its eight bits. -/
def crcUpdate (crc : UInt32) (b : UInt8) : UInt32 := Nat.iterate crcStep 8 (crc ^^^ b.toUInt32)

def checksumIEEE (p : List UInt8) : UInt32 := ~~~(p.foldl crcUpdate (~~~0))

section Lists

variable {α : Type}

theorem flatMap_append_singleton (x : α) :
    ∀ parts : List (List α), parts ≠ [] →
      parts.flatMap (· ++ [x]) = [x].intercalate parts ++ [x]
  | [], h => absurd rfl h
  | [p], _ => by simp
  | p :: q :: parts, _ => by
    rw [List.flatMap_cons, flatMap_append_singleton x (q :: parts) (List.cons_ne_nil _ _),
      List.intercalate_cons_cons]
    simp

variable [DecidableEq α]

/-- `bytes.Index(s, sep)`: the first position at which `sep` occurs in `s`. -/
def index (sep : List α) : List α → Option Nat
  | [] => if sep.isPrefixOf [] then some 0 else none
  | c :: s => if sep.isPrefixOf (c :: s) then some 0 else (index sep s).map (· + 1)

/-- `strings.SplitN(s, sep, n)` for `n ≥ 0` and a one-byte separator: at most `n` parts, the last
one the rest of `s`. -/
def splitN (sep : α) : List α → Nat → List (List α)
  | _, 0 => []
  | s, 1 => [s]
  | s, n + 2 =>
    if sep ∈ s then s.takeWhile (· ≠ sep) :: splitN sep (s.dropWhile (· ≠ sep)).tail (n + 1)
    else [s]

theorem index_sep_append (sep rest : List α) (hsep : sep ≠ []) :
    index sep (sep ++ rest) = some 0 := by
  obtain ⟨c, s, rfl⟩ := List.exists_cons_of_ne_nil hsep
  simp [index]

theorem index_append_of_forall_ne {x : α} {sep' a : List α} (ha : ∀ c ∈ a, c ≠ x) (s : List α) :
    index (x :: sep') (a ++ s) = (index (x :: sep') s).map (· + a.length) := by
  induction a with
  | nil => simp
  | cons c a ih =>
    have hc : c ≠ x := ha c List.mem_cons_self
    have hpre : (x :: sep').isPrefixOf (c :: (a ++ s)) = false := by
      simp [List.isPrefixOf, Ne.symm hc]
    rw [List.cons_append, index, if_neg (by simp [hpre]),
      ih fun d hd => ha d (List.mem_cons_of_mem c hd), Option.map_map]
    congr 1

theorem index_cons_of_not_isPrefixOf {sep : List α} {c : α} {s : List α}
    (h : sep.isPrefixOf (c :: s) = false) : index sep (c :: s) = (index sep s).map (· + 1) := by
  rw [index, if_neg (by simp [h])]

theorem splitN_two {sep : α} {a : List α} (ha : sep ∉ a) (b : List α) :
    splitN sep (a ++ sep :: b) 2 = [a, b] := by
  have htake : (a ++ sep :: b).takeWhile (· ≠ sep) = a := by
    rw [List.takeWhile_append_of_pos (fun c hc => by simpa using ne_of_mem_of_not_mem hc ha)]
    simp
  have hdrop : (a ++ sep :: b).dropWhile (· ≠ sep) = sep :: b := by
    rw [List.dropWhile_append_of_pos (fun c hc => by simpa using ne_of_mem_of_not_mem hc ha)]
    simp
  simp only [splitN, List.mem_append, List.mem_cons_self, or_true, if_true, htake, hdrop,
    List.tail_cons]

/-- Parts that do not hold `x`, joined by `x` and followed by two of them: the first `x, x` is at
the end of the parts. -/
theorem index_intercalate {x : α} {ls : List (List α)} (h : ∀ l ∈ ls, l ≠ [] ∧ x ∉ l)
    (rest : List α) :
    index [x, x] ([x].intercalate ls ++ x :: x :: rest) = some ([x].intercalate ls).length := by
  induction ls with
  | nil => simp [index]
  | cons l ls ih =>
    obtain ⟨-, hxl⟩ := h l List.mem_cons_self
    have hne : ∀ c ∈ l, c ≠ x := fun c hc hcx => hxl (hcx ▸ hc)
    cases ls with
    | nil =>
      rw [List.intercalate_singleton, index_append_of_forall_ne hne,
        show x :: x :: rest = [x, x] ++ rest from rfl, index_sep_append _ _ (by simp)]
      simp
    | cons m ms =>
      obtain ⟨hm, hxm⟩ := h m (by simp)
      obtain ⟨c, m', rfl⟩ := List.exists_cons_of_ne_nil hm
      have hc : c ≠ x := fun hcx => hxm (hcx ▸ List.mem_cons_self)
      have hpre : [x, x].isPrefixOf (x :: [x].intercalate ((c :: m') :: ms) ++
          x :: x :: rest) = false := by
        simp [List.intercalate_cons_cons_left, List.isPrefixOf, Ne.symm hc]
      have hrest := ih fun l' hl' => h l' (List.mem_cons_of_mem l hl')
      rw [List.intercalate_cons_cons, List.append_assoc, List.append_assoc,
        index_append_of_forall_ne hne, List.singleton_append,
        index_cons_of_not_isPrefixOf (by simpa using hpre), hrest]
      simp only [Option.map_some, List.length_append, List.length_singleton, Option.some.injEq]
      omega

end Lists

end GoBytes
