import Mathlib.Data.BitVec
import Mathlib.Data.List.Sort

/-! A set of naturals stored as a list of fixed-width words: bit `b` of word `i` stands for
`i * w + b`. The set bits of one word are listed in ascending order by `bitsOf`; clearing the
lowest set bit with `x &&& (x - 1)` drops the head of that list, and the population count is its
length. Listing the words one after another gives the members in ascending order.

`visitUntil` is a loop that hands the elements of a list to a callback until the callback asks
it to stop. -/

namespace Bitset

variable {w : Nat}

/-- The indices of the set bits of `x`, ascending. -/
def bitsOf (x : BitVec w) : List Nat := (List.range w).filter fun i => x.getLsbD i

@[simp] theorem mem_bitsOf {x : BitVec w} {i : Nat} : i ∈ bitsOf x ↔ x.getLsbD i = true := by
  rw [bitsOf, List.mem_filter, List.mem_range]
  exact ⟨fun h => h.2, fun h => ⟨BitVec.lt_of_getLsbD h, h⟩⟩

theorem bitsOf_sorted (x : BitVec w) : (bitsOf x).Pairwise (· < ·) :=
  List.pairwise_lt_range.filter _

theorem lt_of_mem_bitsOf {x : BitVec w} {i : Nat} (h : i ∈ bitsOf x) : i < w :=
  BitVec.lt_of_getLsbD (mem_bitsOf.mp h)

theorem bitsOf_eq_nil_iff {x : BitVec w} : bitsOf x = [] ↔ x = 0#w := by
  rw [List.eq_nil_iff_forall_not_mem]
  constructor
  · intro h
    apply BitVec.eq_of_getLsbD_eq
    intro i _
    simpa using h i
  · rintro rfl i
    simp

theorem cpopNatRec_eq (x : BitVec w) (n acc : Nat) :
    x.cpopNatRec n acc = acc + ((List.range n).filter fun i => x.getLsbD i).length := by
  induction n generalizing acc with
  | zero => simp [BitVec.cpopNatRec]
  | succ n ih =>
    rw [BitVec.cpopNatRec_succ, ih, List.range_succ, List.filter_append, List.length_append]
    cases hb : x.getLsbD n with
    | false => simp [hb]
    | true =>
      simp [hb]
      omega

theorem toNat_cpop (x : BitVec w) : x.cpop.toNat = (bitsOf x).length := by
  have hle : (bitsOf x).length ≤ w := by
    simpa [bitsOf] using List.length_filter_le (fun i => x.getLsbD i) (List.range w)
  rw [BitVec.cpop, BitVec.toNat_ofNat, cpopNatRec_eq, Nat.zero_add, bitsOf.eq_def]
  exact Nat.mod_eq_of_lt (Nat.lt_of_le_of_lt hle (Nat.lt_two_pow_self))

section LowestBit

variable {x : BitVec w}

theorem toNat_eq_of_ctz (hx : x ≠ 0#w) :
    x.toNat = 2 ^ (x.ctz.toNat + 1) * (x.toNat / 2 ^ (x.ctz.toNat + 1)) + 2 ^ x.ctz.toNat := by
  have hmod : x.toNat % 2 ^ (x.ctz.toNat + 1) = 2 ^ x.ctz.toNat := by
    apply Nat.eq_of_testBit_eq
    intro j
    rw [Nat.testBit_mod_two_pow, Nat.testBit_two_pow, BitVec.testBit_toNat]
    rcases Nat.lt_trichotomy j x.ctz.toNat with hj | rfl | hj
    · simp [BitVec.getLsbD_false_of_lt_ctz hj, Nat.ne_of_gt hj]
    · simp [BitVec.getLsbD_true_ctz_of_ne_zero hx]
    · simp [show ¬j < x.ctz.toNat + 1 by omega, Nat.ne_of_lt hj]
  conv_lhs => rw [← Nat.div_add_mod x.toNat (2 ^ (x.ctz.toNat + 1)), hmod]

theorem getLsbD_and_sub_one (hx : x ≠ 0#w) (i : Nat) :
    (x &&& (x - 1#w)).getLsbD i = (x.getLsbD i && decide (i ≠ x.ctz.toNat)) := by
  set t := x.ctz.toNat with ht_def
  set q := x.toNat / 2 ^ (t + 1) with hq_def
  have hx' : x.toNat = 2 ^ (t + 1) * q + 2 ^ t := toNat_eq_of_ctz hx
  have ht : t < w := BitVec.lt_of_getLsbD (BitVec.getLsbD_true_ctz_of_ne_zero hx)
  have hpow : 2 ^ t < 2 ^ (t + 1) := Nat.pow_lt_pow_right (by decide) (by omega)
  -- below the lowest set bit, `x - 1` is all ones; from it up, `x` and `x - 1` agree
  have hsub : (x - 1#w).toNat = 2 ^ (t + 1) * q + (2 ^ t - 1) := by
    have hone : (1#w).toNat = 1 := by
      rw [BitVec.toNat_ofNat]
      exact Nat.mod_eq_of_lt (Nat.one_lt_two_pow (by omega))
    have hlt := x.isLt
    have hpos : 0 < 2 ^ t := Nat.two_pow_pos t
    rw [BitVec.toNat_sub, hone, show 2 ^ w - 1 + x.toNat = (x.toNat - 1) + 2 ^ w by omega,
      Nat.add_mod_right, Nat.mod_eq_of_lt (by omega)]
    omega
  have hbit : x.getLsbD i = if i < t + 1 then decide (t = i) else q.testBit (i - (t + 1)) := by
    rw [← BitVec.testBit_toNat, hx', Nat.testBit_two_pow_mul_add q hpow, Nat.testBit_two_pow]
  have hbit' : (x - 1#w).getLsbD i =
      if i < t + 1 then decide (i < t) else q.testBit (i - (t + 1)) := by
    rw [← BitVec.testBit_toNat, hsub, Nat.testBit_two_pow_mul_add q (by omega),
      Nat.testBit_two_pow_sub_one]
  rw [BitVec.getLsbD_and, hbit, hbit']
  by_cases hi : i < t + 1
  · by_cases hti : t = i
    · subst hti
      simp
    · simp [hi, hti]
  · simp [hi, show i ≠ t by omega]

theorem bitsOf_eq_ctz_cons (hx : x ≠ 0#w) :
    bitsOf x = x.ctz.toNat :: bitsOf (x &&& (x - 1#w)) := by
  have hctz := BitVec.getLsbD_true_ctz_of_ne_zero hx
  apply List.Pairwise.eq_of_mem_iff (bitsOf_sorted x)
  · -- the lowest set bit comes before every other
    refine List.pairwise_cons.mpr ⟨?_, bitsOf_sorted _⟩
    intro j hj
    rw [mem_bitsOf, getLsbD_and_sub_one hx, Bool.and_eq_true, decide_eq_true_eq] at hj
    have hge : ¬j < x.ctz.toNat := fun hlt => by
      rw [BitVec.getLsbD_false_of_lt_ctz hlt] at hj
      exact Bool.false_ne_true hj.1
    omega
  · intro i
    rw [List.mem_cons, mem_bitsOf, mem_bitsOf, getLsbD_and_sub_one hx]
    by_cases hi : i = x.ctz.toNat
    · subst hi
      simp [hctz]
    · simp [hi]

end LowestBit

section Mask

variable {x : BitVec w} {i : Nat}

theorem and_one_shiftLeft_ne_zero (hi : i < w) : (x &&& 1#w <<< i != 0#w) = x.getLsbD i := by
  rw [← BitVec.twoPow_eq, BitVec.and_twoPow]
  have hne : BitVec.twoPow w i ≠ 0#w := by
    intro h
    have hbit := congrArg (fun b => b.getLsbD i) h
    simp [hi] at hbit
  cases x.getLsbD i with
  | false => simp
  | true => simp [hne]

theorem getLsbD_or_one_shiftLeft (hi : i < w) (j : Nat) :
    (x ||| 1#w <<< i).getLsbD j = (x.getLsbD j || decide (j = i)) := by
  rw [← BitVec.twoPow_eq, BitVec.getLsbD_or, BitVec.getLsbD_twoPow]
  simp [hi, eq_comm]

theorem getLsbD_and_not_one_shiftLeft (hi : i < w) (j : Nat) :
    (x &&& ~~~(1#w <<< i)).getLsbD j = (x.getLsbD j && decide (j ≠ i)) := by
  rw [← BitVec.twoPow_eq, BitVec.getLsbD_and, BitVec.getLsbD_not, BitVec.getLsbD_twoPow]
  by_cases hj : j < w
  · by_cases hji : j = i
    · simp [hji, hi]
    · simp [hj, hi, hji, Ne.symm hji]
  · simp [BitVec.getLsbD_of_ge x j (by omega)]

end Mask

/-- Bit `x` of a list of words: bit `x % w` of word `x / w`, and zero past the last word. -/
def bit (words : List (BitVec w)) (x : Nat) : Bool := (words.getD (x / w) 0#w).getLsbD (x % w)

/-- The members of the words from the `i`-th on, word by word: bit `b` of word `j` is
`j * w + b`. -/
def elemsFrom (i : Nat) : List (BitVec w) → List Nat
  | [] => []
  | x :: xs => (bitsOf x).map (i * w + ·) ++ elemsFrom (i + 1) xs

theorem bit_cons_of_le (hw : 0 < w) {x : BitVec w} {xs : List (BitVec w)} {d : Nat}
    (hd : w ≤ d) : bit (x :: xs) d = bit xs (d - w) := by
  rw [bit, bit, Nat.div_eq_sub_div hw hd, Nat.mod_eq_sub_mod hd]
  rfl

theorem bit_cons_of_lt {x : BitVec w} {xs : List (BitVec w)} {d : Nat} (hd : d < w) :
    bit (x :: xs) d = x.getLsbD d := by
  rw [bit, Nat.div_eq_of_lt hd, Nat.mod_eq_of_lt hd]
  rfl

theorem mem_elemsFrom (hw : 0 < w) (words : List (BitVec w)) :
    ∀ {i x : Nat}, x ∈ elemsFrom i words ↔ i * w ≤ x ∧ bit words (x - i * w) = true := by
  induction words with
  | nil => simp [elemsFrom, bit]
  | cons y ys ih =>
    intro i x
    rw [elemsFrom, List.mem_append, ih, List.mem_map]
    constructor
    · rintro (⟨b, hb, rfl⟩ | ⟨hle, hbit⟩)
      · have hb' := lt_of_mem_bitsOf hb
        refine ⟨by omega, ?_⟩
        rw [show i * w + b - i * w = b by omega, bit_cons_of_lt hb']
        exact mem_bitsOf.mp hb
      · rw [Nat.succ_mul] at hle hbit
        refine ⟨by omega, ?_⟩
        rw [bit_cons_of_le hw (by omega), show x - i * w - w = x - (i * w + w) by omega]
        exact hbit
    · rintro ⟨hle, hbit⟩
      by_cases hlt : x - i * w < w
      · left
        rw [bit_cons_of_lt hlt] at hbit
        exact ⟨x - i * w, mem_bitsOf.mpr hbit, by omega⟩
      · right
        rw [bit_cons_of_le hw (by omega)] at hbit
        rw [Nat.succ_mul]
        exact ⟨by omega, by rwa [show x - (i * w + w) = x - i * w - w by omega]⟩

theorem le_of_mem_elemsFrom (hw : 0 < w) {words : List (BitVec w)} {i x : Nat}
    (h : x ∈ elemsFrom i words) : i * w ≤ x :=
  ((mem_elemsFrom hw words).mp h).1

theorem elemsFrom_sorted (hw : 0 < w) (words : List (BitVec w)) :
    ∀ i, (elemsFrom i words).Pairwise (· < ·) := by
  induction words with
  | nil => simp [elemsFrom]
  | cons y ys ih =>
    intro i
    rw [elemsFrom, List.pairwise_append]
    refine ⟨?_, ih (i + 1), ?_⟩
    · exact (bitsOf_sorted y).map _ fun a b hab => by omega
    · -- a bit of this word is below every member of the later words
      intro a ha b hb
      obtain ⟨c, hc, rfl⟩ := List.mem_map.mp ha
      have hcw := lt_of_mem_bitsOf hc
      have hb' := le_of_mem_elemsFrom hw hb
      rw [Nat.succ_mul] at hb'
      omega

theorem length_elemsFrom (words : List (BitVec w)) :
    ∀ i, (elemsFrom i words).length = (words.map fun x => (bitsOf x).length).sum := by
  induction words with
  | nil => simp [elemsFrom]
  | cons y ys ih =>
    intro i
    simp [elemsFrom, ih]

theorem bit_ext_iff {words words' : List (BitVec w)} :
    (∀ x, bit words x = bit words' x) ↔ ∀ i, words.getD i 0#w = words'.getD i 0#w := by
  constructor
  · intro h i
    apply BitVec.eq_of_getLsbD_eq
    intro b hb
    have hw : 0 < w := by omega
    have hdiv : (i * w + b) / w = i := by
      rw [Nat.mul_comm, Nat.mul_add_div hw, Nat.div_eq_of_lt hb, Nat.add_zero]
    have hmod : (i * w + b) % w = b := by
      rw [Nat.mul_comm, Nat.mul_add_mod, Nat.mod_eq_of_lt hb]
    have := h (i * w + b)
    rwa [bit, bit, hdiv, hmod] at this
  · intro h x
    rw [bit, bit, h]

section Visit

variable {α : Type} (fn : α → Bool)

/-- The elements a loop hands to `fn`, in order, when it stops as soon as `fn` returns false. -/
def visitUntil : List α → List α
  | [] => []
  | a :: l => if fn a then a :: visitUntil l else [a]

theorem visitUntil_append (l₁ l₂ : List α) :
    visitUntil fn (l₁ ++ l₂) = if l₁.all fn then l₁ ++ visitUntil fn l₂ else visitUntil fn l₁ := by
  induction l₁ with
  | nil => simp
  | cons a l₁ ih =>
    cases ha : fn a
    · simp [visitUntil, ha]
    · simp only [List.cons_append, visitUntil, ha, if_true, ih, List.all_cons, Bool.true_and]
      split <;> rfl

theorem visitUntil_of_all {l : List α} (h : l.all fn = true) : visitUntil fn l = l := by
  simpa [h, visitUntil] using visitUntil_append fn l []

end Visit

end Bitset
