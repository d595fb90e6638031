import Mathlib.Data.List.GetD
import Mathlib.Data.Finset.Sort
import Snapd.Lib.Bitset

/-! `IntSet` (cluster/assemblestate/intset/intset.go): a set of non-negative integers as a slice
of 64-bit words, the value `v` at bit `v % 64` of word `v / 64`. The slice grows on `Add` and
never shrinks, so one set has many slices: words past the end read as zero, and `Remove` may
leave zero words at the end. The values are typed as naturals; `Add`'s panic on a negative value
and the early returns of `Contains` and `Remove` on one are outside the model.

What an `IntSet` stands for is the finite set of its set bits, `members`. Each operation is
proved against it, from the one fact of how a write to one word changes the bits. -/

namespace Snapd.Cluster

open Bitset

structure IntSet where
  words : List (BitVec 64)
  deriving DecidableEq, Repr

namespace IntSet

/-- `wordAndBit`: the index of the value's word and its bit in it. -/
def wordAndBit (value : Nat) : Nat × Nat := (value / 64, value % 64)

/-- The slice grown with zero words so that word `word` exists. -/
def grow (words : List (BitVec 64)) (word : Nat) : List (BitVec 64) :=
  if word ≥ words.length then words ++ List.replicate (word + 1 - words.length) 0#64 else words

def add (is : IntSet) (value : Nat) : IntSet :=
  let wb := wordAndBit value
  let words := grow is.words wb.1
  ⟨words.set wb.1 (words.getD wb.1 0#64 ||| 1#64 <<< wb.2)⟩

def contains (is : IntSet) (value : Nat) : Bool :=
  let wb := wordAndBit value
  if wb.1 ≥ is.words.length then false
  else (is.words.getD wb.1 0#64 &&& 1#64 <<< wb.2) != 0#64

def remove (is : IntSet) (value : Nat) : IntSet :=
  let wb := wordAndBit value
  if wb.1 < is.words.length then
    ⟨is.words.set wb.1 (is.words.getD wb.1 0#64 &&& ~~~(1#64 <<< wb.2))⟩
  else is

/-- The inner loop of `Range` over the word `word` of index `wi`: the values handed to `fn`,
and whether `fn` stopped the iteration. Each turn clears a bit, so 64 turns suffice. -/
def rangeWord (fn : Nat → Bool) (wi : Nat) : Nat → BitVec 64 → List Nat × Bool
  | 0, _ => ([], false)
  | fuel + 1, word =>
    if word ≠ 0#64 then
      -- the least significant set bit
      let value := wi * 64 + word.ctz.toNat
      if !fn value then ([value], true)
      else
        let r := rangeWord fn wi fuel (word &&& (word - 1#64))
        (value :: r.1, r.2)
    else ([], false)

/-- The outer loop of `Range`, over the words from index `wi` on. -/
def rangeFrom (fn : Nat → Bool) (wi : Nat) : List (BitVec 64) → List Nat
  | [] => []
  | word :: words =>
    let r := rangeWord fn wi 64 word
    if r.2 then r.1 else r.1 ++ rangeFrom fn (wi + 1) words

/-- `Range`: the values it calls `fn` on, in order. -/
def range (is : IntSet) (fn : Nat → Bool) : List Nat := rangeFrom fn 0 is.words

/-- `All`: the values `Range` hands to a callback that appends them and never stops. -/
def all (is : IntSet) : List Nat := is.range fun _ => true

/-- `Diff`'s loop `for n > 0 && diff[n-1] == 0 { n-- }`, from `n`. -/
def trimZeros (diff : List (BitVec 64)) : Nat → Nat
  | 0 => 0
  | n + 1 => if diff.getD n 0#64 = 0#64 then trimZeros diff n else n + 1

/-- The words of `Diff` before the trailing zero words are trimmed. -/
def diffWords (is other : IntSet) : List (BitVec 64) :=
  is.words.zipIdx.map fun x =>
    if x.2 < other.words.length then x.1 &&& ~~~(other.words.getD x.2 0#64) else x.1

def diff (is other : IntSet) : IntSet :=
  let diff := diffWords is other
  ⟨diff.take (trimZeros diff diff.length)⟩

def count (is : IntSet) : Nat := is.words.foldl (fun total w => total + w.cpop.toNat) 0

/-- `Equal`, without the shortcut for one pointer: word by word up to the longer slice, a
missing word read as zero. -/
def equal (is other : IntSet) : Bool :=
  (List.range (max is.words.length other.words.length)).all fun i =>
    is.words.getD i 0#64 == other.words.getD i 0#64

theorem getD_grow (words : List (BitVec 64)) (word i : Nat) :
    (grow words word).getD i 0#64 = words.getD i 0#64 := by
  rw [grow]
  split
  · by_cases hi : i < words.length
    · exact List.getD_append _ _ _ _ hi
    · rw [List.getD_append_right _ _ _ _ (by omega), List.getD_eq_default words 0#64 (by omega)]
      by_cases hr : i - words.length < word + 1 - words.length
      · exact List.getD_replicate 0#64 hr
      · exact List.getD_eq_default _ _ (by simp only [List.length_replicate]; omega)
  · rfl

theorem lt_length_grow (words : List (BitVec 64)) (word : Nat) : word < (grow words word).length := by
  rw [grow]
  split
  · simp only [List.length_append, List.length_replicate]
    omega
  · omega

theorem bit_grow (words : List (BitVec 64)) (word x : Nat) : bit (grow words word) x = bit words x := by
  rw [bit, bit, getD_grow]

theorem bit_set {words : List (BitVec 64)} {j : Nat} (hj : j < words.length) (y : BitVec 64)
    (x : Nat) : bit (words.set j y) x = if x / 64 = j then y.getLsbD (x % 64) else bit words x := by
  rw [bit, bit, List.getD_eq_getElem?_getD, List.getElem?_set, List.getD_eq_getElem?_getD]
  by_cases h : x / 64 = j
  · subst h
    simp [hj]
  · simp [h, Ne.symm h]

theorem eq_iff_wordAndBit {x v : Nat} : x = v ↔ x / 64 = v / 64 ∧ x % 64 = v % 64 := by
  omega

theorem bit_add (is : IntSet) (v x : Nat) :
    bit (is.add v).words x = (bit is.words x || decide (x = v)) := by
  simp only [add, wordAndBit]
  rw [bit_set (lt_length_grow _ _)]
  by_cases h : x / 64 = v / 64
  · rw [if_pos h, getLsbD_or_one_shiftLeft (by omega), ← h, getD_grow]
    simp only [bit, eq_iff_wordAndBit (x := x), h, true_and]
  · have hxv : x ≠ v := fun hxv => h (hxv ▸ rfl)
    rw [if_neg h, bit_grow]
    simp [hxv]

theorem bit_remove (is : IntSet) (v x : Nat) :
    bit (is.remove v).words x = (bit is.words x && decide (x ≠ v)) := by
  simp only [remove]
  split
  · rename_i hlen
    simp only [wordAndBit] at hlen ⊢
    rw [bit_set hlen]
    by_cases h : x / 64 = v / 64
    · rw [if_pos h, getLsbD_and_not_one_shiftLeft (by omega), ← h]
      simp only [bit, ne_eq, eq_iff_wordAndBit (x := x), h, true_and]
    · have hxv : x ≠ v := fun hxv => h (hxv ▸ rfl)
      rw [if_neg h]
      simp [hxv]
  · -- the value's word does not exist: its bit is already clear
    rename_i hlen
    simp only [wordAndBit] at hlen
    by_cases hxv : x = v
    · subst hxv
      rw [bit, List.getD_eq_default is.words 0#64 (Nat.le_of_not_lt hlen)]
      simp
    · simp [hxv]

theorem contains_eq_bit (is : IntSet) (v : Nat) : is.contains v = bit is.words v := by
  simp only [contains]
  split
  · rename_i hlen
    simp only [wordAndBit] at hlen
    rw [bit, List.getD_eq_default is.words 0#64 hlen]
    simp
  · rename_i hlen
    simp only [wordAndBit] at hlen ⊢
    rw [and_one_shiftLeft_ne_zero (by omega), bit]

theorem contains_add (is : IntSet) (v x : Nat) :
    (is.add v).contains x = (is.contains x || decide (x = v)) := by
  rw [contains_eq_bit, contains_eq_bit, bit_add]

/-- The members, in the order `Range` visits them. -/
def elems (is : IntSet) : List Nat := elemsFrom 0 is.words

theorem mem_elems {is : IntSet} {x : Nat} : x ∈ is.elems ↔ bit is.words x = true := by
  simp [elems, mem_elemsFrom (by decide : 0 < 64)]

theorem elems_sorted (is : IntSet) : is.elems.Pairwise (· < ·) :=
  elemsFrom_sorted (by decide) is.words 0

theorem rangeWord_eq (fn : Nat → Bool) (wi : Nat) :
    ∀ (fuel : Nat) (word : BitVec 64), (bitsOf word).length ≤ fuel →
      rangeWord fn wi fuel word =
        (visitUntil fn ((bitsOf word).map (wi * 64 + ·)),
          !((bitsOf word).map (wi * 64 + ·)).all fn) := by
  intro fuel
  induction fuel with
  | zero =>
    intro word hlen
    have hnil : bitsOf word = [] := List.eq_nil_of_length_eq_zero (by omega)
    simp [rangeWord, hnil, visitUntil]
  | succ fuel ih =>
    intro word hlen
    by_cases hw : word = 0#64
    · subst hw
      simp [rangeWord, bitsOf_eq_nil_iff.mpr rfl, visitUntil]
    · -- the lowest set bit is the head of the set bits; the rest are those of the cleared word
      have hbits := bitsOf_eq_ctz_cons hw
      rw [hbits, List.length_cons] at hlen
      rw [hbits, List.map_cons, rangeWord, if_pos hw]
      cases hfn : fn (wi * 64 + word.ctz.toNat) with
      | false => simp [visitUntil, hfn]
      | true =>
        simp only [hfn, Bool.not_true, Bool.false_eq_true, if_false]
        rw [ih _ (by omega)]
        simp [visitUntil, hfn]

theorem rangeFrom_eq (fn : Nat → Bool) :
    ∀ (words : List (BitVec 64)) (wi : Nat), rangeFrom fn wi words = visitUntil fn (elemsFrom wi words) := by
  intro words
  induction words with
  | nil => simp [rangeFrom, elemsFrom, visitUntil]
  | cons word words ih =>
    intro wi
    have hlen : (bitsOf word).length ≤ 64 := by
      simpa [bitsOf] using List.length_filter_le (fun i => word.getLsbD i) (List.range 64)
    rw [rangeFrom, rangeWord_eq fn wi 64 word hlen, elemsFrom, visitUntil_append, ih]
    by_cases hall : ((bitsOf word).map (wi * 64 + ·)).all fn = true
    · simp only [hall, Bool.not_true, Bool.false_eq_true, if_false, if_true]
      rw [visitUntil_of_all fn hall]
    · simp [hall]

theorem range_eq (is : IntSet) (fn : Nat → Bool) : is.range fn = visitUntil fn is.elems :=
  rangeFrom_eq fn is.words 0

theorem all_eq (is : IntSet) : is.all = is.elems := by
  rw [all, range_eq, visitUntil_of_all]
  simp

theorem count_eq (is : IntSet) : is.count = is.elems.length := by
  have hfold : ∀ (ws : List (BitVec 64)) (acc : Nat),
      ws.foldl (fun total w => total + w.cpop.toNat) acc =
        acc + (ws.map fun x => (bitsOf x).length).sum := by
    intro ws
    induction ws with
    | nil => simp
    | cons x ws ih =>
      intro acc
      rw [List.foldl_cons, ih, toNat_cpop, List.map_cons, List.sum_cons]
      omega
  rw [count, hfold, elems, length_elemsFrom, Nat.zero_add]

theorem getD_diffWords (is other : IntSet) (i : Nat) :
    (diffWords is other).getD i 0#64 = is.words.getD i 0#64 &&& ~~~(other.words.getD i 0#64) := by
  by_cases hi : i < is.words.length
  · have hget : (diffWords is other).getD i 0#64 =
        if i < other.words.length then is.words[i] &&& ~~~(other.words.getD i 0#64)
        else is.words[i] := by
      rw [diffWords, List.getD_eq_getElem?_getD, List.getElem?_map, List.getElem?_zipIdx,
        List.getElem?_eq_getElem hi]
      simp only [Option.map_some, Option.getD_some, Nat.zero_add]
    rw [hget, List.getD_eq_getElem?_getD (l := is.words), List.getElem?_eq_getElem hi,
      Option.getD_some]
    split
    · rfl
    · -- a missing word of the other set reads as zero
      rw [List.getD_eq_default other.words 0#64 (by omega), BitVec.not_zero, BitVec.and_allOnes]
  · have hlen : (diffWords is other).length = is.words.length := by simp [diffWords]
    rw [List.getD_eq_default is.words 0#64 (by omega), BitVec.zero_and,
      List.getD_eq_default _ 0#64 (by omega)]

/-- The trimming loop stops below `n` at a nonzero word, or at zero, with only zero words
between. -/
theorem trimZeros_spec (diff : List (BitVec 64)) :
    ∀ n, trimZeros diff n ≤ n ∧
      (∀ i, trimZeros diff n ≤ i → i < n → diff.getD i 0#64 = 0#64) ∧
      (trimZeros diff n = 0 ∨ diff.getD (trimZeros diff n - 1) 0#64 ≠ 0#64) := by
  intro n
  induction n with
  | zero => simp [trimZeros]
  | succ n ih =>
    rw [trimZeros]
    split
    · rename_i hz
      obtain ⟨hle, hzero, hlast⟩ := ih
      refine ⟨by omega, ?_, hlast⟩
      intro i hi hin
      by_cases hin' : i < n
      · exact hzero i hi hin'
      · rw [show i = n by omega]
        exact hz
    · rename_i hz
      refine ⟨le_refl _, fun i hi hin => absurd hin (by omega), .inr hz⟩

theorem bit_diff (is other : IntSet) (x : Nat) :
    bit (is.diff other).words x = (bit is.words x && !bit other.words x) := by
  obtain ⟨-, hzero, -⟩ := trimZeros_spec (diffWords is other) (diffWords is other).length
  have hword : ((is.diff other).words).getD (x / 64) 0#64 = (diffWords is other).getD (x / 64) 0#64 := by
    simp only [diff, List.getD_eq_getElem?_getD, List.getElem?_take]
    split
    · rfl
    · rename_i hlt
      by_cases hin : x / 64 < (diffWords is other).length
      · have := hzero (x / 64) (by omega) hin
        rw [List.getD_eq_getElem?_getD] at this
        rw [this]
        rfl
      · rw [List.getElem?_eq_none (by omega)]
  rw [bit, hword, getD_diffWords, BitVec.getLsbD_and, BitVec.getLsbD_not]
  simp [bit, show x % 64 < 64 by omega]

theorem getLast?_diff_ne_zero (is other : IntSet) : (is.diff other).words.getLast? ≠ some 0#64 := by
  obtain ⟨hle, -, hlast⟩ := trimZeros_spec (diffWords is other) (diffWords is other).length
  simp only [diff]
  rw [List.getLast?_eq_getElem?, List.length_take, Nat.min_eq_left hle]
  rcases Nat.eq_zero_or_pos (trimZeros (diffWords is other) (diffWords is other).length) with
    h0 | hpos
  · rw [h0]
    simp
  · have hne := hlast.resolve_left (by omega)
    rw [List.getElem?_take, if_pos (by omega)]
    intro h
    apply hne
    rw [List.getD_eq_getElem?_getD, h]
    rfl

theorem equal_iff (is other : IntSet) :
    is.equal other = true ↔ ∀ x, bit is.words x = bit other.words x := by
  rw [bit_ext_iff, equal, List.all_eq_true]
  constructor
  · intro h i
    by_cases hi : i < max is.words.length other.words.length
    · simpa using h i (List.mem_range.mpr hi)
    · rw [List.getD_eq_default _ _ (by omega), List.getD_eq_default _ _ (by omega)]
  · intro h i _
    rw [beq_iff_eq]
    exact h i

/-- The members of the set. -/
def members (is : IntSet) : Finset Nat := is.elems.toFinset

theorem mem_members {is : IntSet} {x : Nat} : x ∈ is.members ↔ bit is.words x = true := by
  rw [members, List.mem_toFinset, mem_elems]

theorem members_add (is : IntSet) (v : Nat) : (is.add v).members = insert v is.members := by
  ext x
  simp [mem_members, bit_add, or_comm]

theorem members_remove (is : IntSet) (v : Nat) : (is.remove v).members = is.members.erase v := by
  ext x
  simp [mem_members, bit_remove, and_comm]

theorem contains_iff (is : IntSet) (v : Nat) : is.contains v = true ↔ v ∈ is.members := by
  rw [contains_eq_bit, mem_members]

theorem members_diff (is other : IntSet) : (is.diff other).members = is.members \ other.members := by
  ext x
  simp [mem_members, bit_diff]

theorem count_eq_card (is : IntSet) : is.count = is.members.card := by
  rw [count_eq, members, List.toFinset_card_of_nodup is.elems_sorted.nodup]

theorem elems_eq_sort (is : IntSet) : is.elems = is.members.sort := by
  have hnodup : is.elems.Nodup := is.elems_sorted.nodup
  rw [members, (List.toFinset_sort _ hnodup).mpr (is.elems_sorted.imp Nat.le_of_lt)]

theorem equal_iff_members (is other : IntSet) : is.equal other = true ↔ is.members = other.members := by
  rw [equal_iff, Finset.ext_iff]
  simp only [mem_members]
  constructor
  · intro h x
    rw [h x]
  · intro h x
    exact Bool.eq_iff_iff.mpr (h x)

/-- A call that changes an `IntSet`. -/
inductive Op where
  | add (value : Nat)
  | remove (value : Nat)
  deriving DecidableEq, Repr

/-- The call, made on an `IntSet`. -/
def Op.apply (is : IntSet) : Op → IntSet
  | .add v => is.add v
  | .remove v => is.remove v

/-- What the call does to the set an `IntSet` stands for. -/
def Op.applyFinset (s : Finset Nat) : Op → Finset Nat
  | .add v => insert v s
  | .remove v => s.erase v

/-- The calls made in order on the zero value, which is the empty set. -/
def ofCalls (ops : List Op) : IntSet := ops.foldl Op.apply ⟨[]⟩

/-- `x` was added by one of the calls and not removed by a later one. -/
def AddedNotRemoved (ops : List Op) (x : Nat) : Prop :=
  ∃ pre post, ops = pre ++ .add x :: post ∧ .remove x ∉ post

theorem members_apply (is : IntSet) (op : Op) : (op.apply is).members = op.applyFinset is.members := by
  cases op with
  | add v => exact members_add is v
  | remove v => exact members_remove is v

theorem members_foldl (ops : List Op) :
    ∀ is : IntSet, (ops.foldl Op.apply is).members = ops.foldl Op.applyFinset is.members := by
  induction ops with
  | nil => intro is; rfl
  | cons op ops ih =>
    intro is
    rw [List.foldl_cons, List.foldl_cons, ih, members_apply]

theorem addedNotRemoved_cons (op : Op) (ops : List Op) (x : Nat) :
    AddedNotRemoved (op :: ops) x ↔ (op = .add x ∧ .remove x ∉ ops) ∨ AddedNotRemoved ops x := by
  constructor
  · rintro ⟨pre, post, heq, hpost⟩
    cases pre with
    | nil =>
      simp only [List.nil_append, List.cons.injEq] at heq
      obtain ⟨rfl, rfl⟩ := heq
      exact .inl ⟨rfl, hpost⟩
    | cons a pre =>
      simp only [List.cons_append, List.cons.injEq] at heq
      exact .inr ⟨pre, post, heq.2, hpost⟩
  · rintro (⟨rfl, hops⟩ | ⟨pre, post, rfl, hpost⟩)
    · exact ⟨[], ops, rfl, hops⟩
    · exact ⟨op :: pre, post, rfl, hpost⟩

/-- After a run of calls on finite sets, a value is in the set when it was in it at the start
and never removed, or when it was added and not removed since. -/
theorem mem_foldl_applyFinset (x : Nat) (ops : List Op) :
    ∀ s : Finset Nat, x ∈ ops.foldl Op.applyFinset s ↔
      (x ∈ s ∧ .remove x ∉ ops) ∨ AddedNotRemoved ops x := by
  induction ops with
  | nil =>
    intro s
    simp [AddedNotRemoved]
  | cons op ops ih =>
    intro s
    rw [List.foldl_cons, ih, addedNotRemoved_cons]
    cases op with
    | add v =>
      by_cases hxv : x = v
      · subst hxv
        simp only [Op.applyFinset, Finset.mem_insert, true_or, true_and, List.mem_cons,
          reduceCtorEq, false_or]
        tauto
      · simp [Op.applyFinset, hxv, Ne.symm hxv]
    | remove v =>
      by_cases hxv : x = v
      · subst hxv
        simp [Op.applyFinset]
      · simp [Op.applyFinset, hxv]

theorem contains_ofCalls_iff (ops : List Op) (x : Nat) :
    (ofCalls ops).contains x = true ↔ AddedNotRemoved ops x := by
  rw [contains_iff, ofCalls, members_foldl, mem_foldl_applyFinset]
  have hempty : (IntSet.mk []).members = ∅ := rfl
  simp [hempty]

theorem intSet_refines_finite_set (ops : List Op) (other : IntSet) :
    (∀ x, (ofCalls ops).contains x = true ↔ AddedNotRemoved ops x) ∧
      (ofCalls ops).count = (ofCalls ops).members.card ∧
      (ofCalls ops).all = (ofCalls ops).members.sort ∧
      (ofCalls ops).all.Pairwise (· < ·) ∧
      (∀ fn, (ofCalls ops).range fn = visitUntil fn (ofCalls ops).members.sort) ∧
      ((ofCalls ops).diff other).members = (ofCalls ops).members \ other.members ∧
      ((ofCalls ops).diff other).words.getLast? ≠ some 0#64 ∧
      ((ofCalls ops).equal other = true ↔ (ofCalls ops).members = other.members) := by
  refine ⟨contains_ofCalls_iff ops, count_eq_card _, ?_, ?_, ?_, members_diff _ other,
    getLast?_diff_ne_zero _ other, equal_iff_members _ other⟩
  · rw [all_eq, elems_eq_sort]
  · rw [all_eq]
    exact elems_sorted _
  · intro fn
    rw [range_eq, elems_eq_sort]

example : (ofCalls [.add 3, .add 70, .add 5, .remove 3]).all = [5, 70] := by decide +kernel

end IntSet

end Snapd.Cluster
