import Snapd.Asserts.Stream
import Mathlib.Algebra.Group.Nat.Defs

/-! What the assertion stream guarantees: the decoder reads back, one by one, the assertions the
encoder wrote, each as `Decode` reads it alone, and then reports the end of the stream. This
holds when each assertion's headers and signature are read within the sizes `readUntil` peeks,
which start at the decoder's buffer size and double while they stay within the limit. -/

namespace Snapd.Asserts

open List Search

section ReadUntil

variable {α : Type} [DecidableEq α] {nl : α} {M : Nat}

/-- `readUntil` from buffer size `initialBufSize` sees `n` bytes: one of the sizes it peeks,
`initialBufSize` and its doublings within `maxSize`, is at least `n`. -/
def Reaches (initialBufSize maxSize n : Nat) : Prop :=
  ∃ k, n ≤ initialBufSize * 2 ^ k ∧ (k = 0 ∨ initialBufSize * 2 ^ k ≤ maxSize)

omit [DecidableEq α] in
@[simp]
theorem nlnl_length : (nlnl nl).length = 2 := rfl

omit [DecidableEq α] in
theorem nlnl_ne_nil : nlnl nl ≠ [] := nofun

omit [DecidableEq α] in
theorem firstAt_add_two_le {l : List α} {p : Nat} (h : FirstAt (nlnl nl) l p) :
    p + 2 ≤ l.length := by
  have hlen := h.1.length_le
  simp only [nlnl_length, length_drop] at hlen
  omega

theorem readUntilLoop_found {fuel last size p : Nat} {d : Decoder α}
    (hfirst : FirstAt (nlnl nl) d.rest p) (hlast : last ≤ p) (hsize : p + 2 ≤ size) :
    d.readUntilLoop nl M (fuel + 1) last size =
      (d.rest.take (p + 2), none,
        { d with rest := d.rest.drop (p + 2), eof := d.eof || decide (d.rest.length < size) }) := by
  have hrest := firstAt_add_two_le hfirst
  have hwin := index?_window_of_firstAt nlnl_ne_nil hfirst hlast (by simpa using hsize)
  have hbuf : ¬ ((d.rest.take size).length : Int) < (last : Int) := by
    simp only [length_take]
    omega
  have hneg : ¬ (last : Int) < 0 := by omega
  simp only [Decoder.readUntilLoop, Decoder.peek, hneg, hbuf, or_self, if_false,
    Int.toNat_natCast, hwin, nlnl_length, Decoder.discard]
  have hn : last + (p - last) + 2 = p + 2 := by omega
  rw [hn, take_take, Nat.min_eq_left hsize]

theorem readUntilLoop_grow {fuel last size : Nat} {d : Decoder α}
    (hnone : index? (nlnl nl) ((d.rest.take size).drop last) = none) (hpos : 0 < size)
    (hlast : last ≤ size) (hmore : size < d.rest.length ∨ (size = d.rest.length ∧ d.eof = false))
    (hM : size * 2 ≤ M) :
    d.readUntilLoop nl M (fuel + 1) last size =
      ({ d with eof := d.eof || decide (d.rest.length < size) } : Decoder α).readUntilLoop nl M fuel
        (size - 1 : Nat) (size * 2) := by
  have hbuf : ¬ ((d.rest.take size).length : Int) < (last : Int) := by
    simp only [length_take]
    omega
  have hstop : ¬ ((d.eof || decide (d.rest.length < size)) = true ∧
      (d.rest.take size).length = d.rest.length) := by
    rintro ⟨herr, hlen⟩
    simp only [length_take] at hlen
    rcases hmore with hlt | ⟨heq, heof⟩
    · omega
    · simp [heof, heq] at herr
  have hneg : ¬ (last : Int) < 0 := by omega
  have hlast' : ((size : Int) - ((2 : Nat) : Int) + 1) = ((size - 1 : Nat) : Int) := by omega
  simp only [Decoder.readUntilLoop, Decoder.peek, hneg, hbuf, or_self, if_false,
    Int.toNat_natCast, hnone, hstop, nlnl_length, not_lt.mpr hM, hlast']

theorem readUntilLoop_end {fuel last size : Nat} {d : Decoder α}
    (hnone : index? (nlnl nl) ((d.rest.take size).drop last) = none)
    (hlast : last ≤ d.rest.length)
    (hend : d.rest.length < size ∨ (d.rest.length = size ∧ d.eof = true)) :
    d.readUntilLoop nl M (fuel + 1) last size =
      (d.rest, some .eof, { d with rest := [], eof := true }) := by
  have hbuf : ¬ ((d.rest.take size).length : Int) < (last : Int) := by
    simp only [length_take]
    omega
  have htake : d.rest.take size = d.rest := take_of_length_le (by omega)
  have herr : (d.eof || decide (d.rest.length < size)) = true := by
    rcases hend with hlt | ⟨-, heof⟩
    · simp [hlt]
    · simp [heof]
  have hneg : ¬ (last : Int) < 0 := by omega
  rw [htake] at hnone hbuf
  simp only [Decoder.readUntilLoop, Decoder.peek, hneg, hbuf, or_self, if_false,
    Int.toNat_natCast, hnone, herr, htake, true_and, if_true, Decoder.discard, drop_length]

theorem readUntilLoop_exceeded {fuel last size : Nat} {d : Decoder α}
    (hnone : index? (nlnl nl) ((d.rest.take size).drop last) = none)
    (hlast : last ≤ size) (hmore : size < d.rest.length) (hM : M < size * 2) :
    d.readUntilLoop nl M (fuel + 1) last size =
      ([], some (.msg maxSizeExceeded), { d with eof := d.eof || decide (d.rest.length < size) }) := by
  have hbuf : ¬ ((d.rest.take size).length : Int) < (last : Int) := by
    simp only [length_take]
    omega
  have hstop : ¬ ((d.eof || decide (d.rest.length < size)) = true ∧
      (d.rest.take size).length = d.rest.length) := by
    rintro ⟨-, hlen⟩
    simp only [length_take] at hlen
    omega
  have hneg : ¬ (last : Int) < 0 := by omega
  simp only [Decoder.readUntilLoop, Decoder.peek, hneg, hbuf, or_self, if_false,
    Int.toNat_natCast, hnone, hstop, hM, if_true]

theorem two_mul_le_of_pow {size k M : Nat} (h : size * 2 ^ (k + 1) ≤ M) : size * 2 ≤ M :=
  le_trans (Nat.mul_le_mul_left size (Nat.le_self_pow (Nat.succ_ne_zero k) 2)) h

theorem mul_two_pow_succ (size k : Nat) : size * 2 ^ (k + 1) = size * 2 * 2 ^ k := by
  rw [Nat.pow_succ, Nat.mul_comm (2 ^ k) 2, Nat.mul_assoc]

/-- `readUntil` stops at the first blank line of the stream when the bytes up to its end are
among those peeked: the loop doubles the size it peeks until they are. -/
theorem readUntilLoop_of_firstAt {p : Nat} :
    ∀ (k fuel last size : Nat) (d : Decoder α), FirstAt (nlnl nl) d.rest p → 0 < size →
      k < fuel → last ≤ size → last ≤ p → p + 2 ≤ size * 2 ^ k → (k = 0 ∨ size * 2 ^ k ≤ M) →
      ∃ b, d.readUntilLoop nl M fuel last size =
        (d.rest.take (p + 2), none, { d with rest := d.rest.drop (p + 2), eof := b })
  | k, 0, _, _, _, _, _, hk, _, _, _, _ => absurd hk (Nat.not_lt_zero k)
  | k, fuel + 1, last, size, d, hfirst, hpos, hk, hlast, hlastp, hreach, hM => by
    by_cases hfound : p + 2 ≤ size
    · exact ⟨_, readUntilLoop_found hfirst hlastp hfound⟩
    cases k with
    | zero => simp at hreach; omega
    | succ k =>
      -- the blank line ends past the bytes peeked: the next turn peeks twice as many
      have hM' : size * 2 ^ (k + 1) ≤ M := hM.resolve_left (Nat.succ_ne_zero k)
      have hnone : index? (nlnl nl) ((d.rest.take size).drop last) = none :=
        index?_window_eq_none_of_firstAt nlnl_ne_nil hfirst (by simp only [nlnl_length]; omega)
      have hmore : size < d.rest.length := by
        have := firstAt_add_two_le hfirst
        omega
      rw [readUntilLoop_grow hnone hpos hlast (Or.inl hmore) (two_mul_le_of_pow hM')]
      exact readUntilLoop_of_firstAt k fuel (size - 1) (size * 2) _ hfirst (by omega) (by omega)
        (by omega) (by omega) (by rwa [← mul_two_pow_succ]) (Or.inr (by rwa [← mul_two_pow_succ]))

/-- `readUntil` reports the end of a stream with no blank line left when it peeks past the
stream's end. -/
theorem readUntilLoop_of_no_occurrence :
    ∀ (k fuel last size : Nat) (d : Decoder α), ¬ nlnl nl <:+: d.rest → 0 < size → k < fuel →
      last ≤ size → last ≤ d.rest.length → d.rest.length < size * 2 ^ k →
      (k = 0 ∨ size * 2 ^ k ≤ M) →
      d.readUntilLoop nl M fuel last size = (d.rest, some .eof, { d with rest := [], eof := true })
  | k, 0, _, _, _, _, _, hk, _, _, _, _ => absurd hk (Nat.not_lt_zero k)
  | k, fuel + 1, last, size, d, hnot, hpos, hk, hlast, hlastr, hreach, hM => by
    have hnone : index? (nlnl nl) ((d.rest.take size).drop last) = none :=
      index?_window_eq_none_of_no_occurrence nlnl_ne_nil hnot
    by_cases hend : d.rest.length < size ∨ (d.rest.length = size ∧ d.eof = true)
    · exact readUntilLoop_end hnone hlastr hend
    cases k with
    | zero => simp at hreach; omega
    | succ k =>
      have hM' : size * 2 ^ (k + 1) ≤ M := hM.resolve_left (Nat.succ_ne_zero k)
      have hmore : size < d.rest.length ∨ (size = d.rest.length ∧ d.eof = false) := by
        obtain ⟨hge, hnoteof⟩ := not_or.mp hend
        rcases Nat.lt_or_ge size d.rest.length with hlt | hle
        · exact Or.inl hlt
        · have heq : d.rest.length = size := by omega
          refine Or.inr ⟨heq.symm, ?_⟩
          cases heof : d.eof
          · rfl
          · exact absurd ⟨heq, heof⟩ hnoteof
      rw [readUntilLoop_grow hnone hpos hlast hmore (two_mul_le_of_pow hM')]
      exact readUntilLoop_of_no_occurrence k fuel (size - 1) (size * 2) _ hnot (by omega)
        (by omega) (by omega) (by simp only; omega) (by rwa [← mul_two_pow_succ])
        (Or.inr (by rwa [← mul_two_pow_succ]))

theorem readUntilLoop_of_firstAt_exceeded {p : Nat} :
    ∀ (k fuel last size : Nat) (d : Decoder α), FirstAt (nlnl nl) d.rest p → 0 < size →
      k < fuel → last ≤ size → size * 2 ^ k < p + 2 → M < size * 2 ^ (k + 1) →
      (k = 0 ∨ size * 2 ^ k ≤ M) →
      ∃ d', d.readUntilLoop nl M fuel last size = ([], some (.msg maxSizeExceeded), d')
  | k, 0, _, _, _, _, _, hk, _, _, _, _ => absurd hk (Nat.not_lt_zero k)
  | k, fuel + 1, last, size, d, hfirst, hpos, hk, hlast, hshort, hover, hM => by
    have hsize : size ≤ size * 2 ^ k := Nat.le_mul_of_pos_right size (Nat.two_pow_pos k)
    have hnone : index? (nlnl nl) ((d.rest.take size).drop last) = none :=
      index?_window_eq_none_of_firstAt nlnl_ne_nil hfirst (by simp only [nlnl_length]; omega)
    have hmore : size < d.rest.length := by
      have := firstAt_add_two_le hfirst
      omega
    cases k with
    | zero => exact ⟨_, readUntilLoop_exceeded hnone hlast hmore (by simpa using hover)⟩
    | succ k =>
      have hM' : size * 2 ^ (k + 1) ≤ M := hM.resolve_left (Nat.succ_ne_zero k)
      rw [readUntilLoop_grow hnone hpos hlast (Or.inl hmore) (two_mul_le_of_pow hM')]
      exact readUntilLoop_of_firstAt_exceeded k fuel (size - 1) (size * 2) _ hfirst (by omega)
        (by omega) (by omega) (by rwa [← mul_two_pow_succ])
        (by rwa [mul_two_pow_succ] at hover)
        (Or.inr (by rwa [← mul_two_pow_succ]))

theorem Reaches.mono {B M n m : Nat} (h : Reaches B M n) (hm : m ≤ n) : Reaches B M m := by
  obtain ⟨k, hk, hM⟩ := h
  exact ⟨k, le_trans hm hk, hM⟩

theorem lt_fuel_of_reaches {B M k : Nat} (hB : 0 < B) (hM : k = 0 ∨ B * 2 ^ k ≤ M) : k < M + 2 := by
  rcases hM with rfl | hM
  · exact Nat.succ_pos _
  · have hk : k < 2 ^ k := Nat.lt_two_pow_self
    have hpow : 2 ^ k ≤ B * 2 ^ k := Nat.le_mul_of_pos_left (2 ^ k) hB
    omega

theorem readUntil_of_firstAt {d : Decoder α} {p : Nat} (hB : 0 < d.initialBufSize)
    (hfirst : FirstAt (nlnl nl) d.rest p) (hreach : Reaches d.initialBufSize M (p + 2)) :
    ∃ b, d.readUntil nl M =
      (d.rest.take (p + 2), none, { d with rest := d.rest.drop (p + 2), eof := b }) := by
  obtain ⟨k, hk, hM⟩ := hreach
  exact readUntilLoop_of_firstAt k (M + 2) 0 d.initialBufSize d hfirst hB
    (lt_fuel_of_reaches hB hM) (Nat.zero_le _) (Nat.zero_le _) hk hM

theorem readUntil_of_no_occurrence {d : Decoder α} (hB : 0 < d.initialBufSize)
    (hnot : ¬ nlnl nl <:+: d.rest) (hreach : Reaches d.initialBufSize M (d.rest.length + 1)) :
    d.readUntil nl M = (d.rest, some .eof, { d with rest := [], eof := true }) := by
  obtain ⟨k, hk, hM⟩ := hreach
  exact readUntilLoop_of_no_occurrence k (M + 2) 0 d.initialBufSize d hnot hB
    (lt_fuel_of_reaches hB hM) (Nat.zero_le _) (Nat.zero_le _) hk hM

end ReadUntil

section Parts

variable {α : Type} [DecidableEq α] {nl : α}

/-- What `WriteEncoded` leaves of an encoded assertion: it, and a newline if it does not end with
one. -/
def terminated (nl : α) (l : List α) : List α :=
  if l.getLast? = some nl then l else l ++ [nl]

theorem terminated_eq_append (l : List α) : ∃ s, terminated nl l = s ++ [nl] := by
  unfold terminated
  split
  · rename_i hlast
    exact ⟨l.dropLast, (dropLast_append_getLast? nl hlast).symm⟩
  · exact ⟨l, rfl⟩

theorem length_terminated_le (l : List α) : (terminated nl l).length ≤ l.length + 1 := by
  unfold terminated
  split <;> simp

theorem head?_terminated {l : List α} (hl : l ≠ []) : (terminated nl l).head? = l.head? := by
  unfold terminated
  split
  · rfl
  · obtain ⟨a, t, rfl⟩ := exists_cons_of_ne_nil hl
    rfl

omit [DecidableEq α] in
theorem nlnl_infix_concat {l : List α} :
    nlnl nl <:+: l ++ [nl] ↔ l.getLast? = some nl ∨ nlnl nl <:+: l := by
  rw [infix_concat_iff, suffix_concat_iff]
  simp only [nlnl, reduceCtorEq, false_or]
  constructor
  · rintro (⟨t, ht, hsuf⟩ | hinf)
    · obtain rfl : t = [nl] := by
        have := congrArg dropLast ht
        simpa using this.symm
      left
      obtain ⟨u, rfl⟩ := hsuf
      simp
    · exact Or.inr hinf
  · rintro (hlast | hinf)
    · left
      refine ⟨[nl], rfl, ?_⟩
      exact ⟨l.dropLast, dropLast_append_getLast? nl hlast⟩
    · exact Or.inr hinf

omit [DecidableEq α] in
theorem nlnl_infix_concat_of_ne {l : List α} {c : α} (hc : c ≠ nl) :
    nlnl nl <:+: l ++ [c] ↔ nlnl nl <:+: l := by
  rw [infix_concat_iff, suffix_concat_iff]
  simp only [nlnl, reduceCtorEq, false_or]
  constructor
  · rintro (⟨t, ht, -⟩ | hinf)
    · have hlast := congrArg getLast? ht
      simp only [getLast?_concat] at hlast
      exact absurd (by simpa using hlast.symm) hc
    · exact hinf
  · exact Or.inr

omit [DecidableEq α] in
theorem not_nlnl_infix_append_replicate {l : List α} {c : α} (hc : c ≠ nl)
    (hl : ¬ nlnl nl <:+: l) : ∀ n, ¬ nlnl nl <:+: l ++ replicate n c
  | 0 => by simpa using hl
  | n + 1 => by
    rw [replicate_succ', ← append_assoc, nlnl_infix_concat_of_ne hc]
    exact not_nlnl_infix_append_replicate hc hl n

theorem not_nlnl_infix_terminated {l : List α} (hl : ¬ nlnl nl <:+: l) :
    ¬ nlnl nl <:+: terminated nl l := by
  unfold terminated
  split
  · exact hl
  · rename_i hlast
    rw [nlnl_infix_concat]
    rintro (h | h)
    · exact hlast h
    · exact hl h

theorem terminated_encode {content sig : List α} (hsig : sig ≠ []) :
    terminated nl (encode nl content sig) = encode nl content (terminated nl sig) := by
  have hlast : (encode nl content sig).getLast? = sig.getLast? := by
    rw [encode, getLast?_append_of_ne_nil _ hsig]
  unfold terminated
  rw [hlast]
  split <;> simp [encode]

variable {M : Nat}

omit [DecidableEq α] in
theorem not_nlnl_infix_singleton : ¬ nlnl nl <:+: [nl] := fun h => by
  simpa [nlnl] using h.length_le

theorem readUntil_head {d : Decoder α} {head rest : List α} (hB : 0 < d.initialBufSize)
    (hhead : ¬ nlnl nl <:+: head ++ [nl]) (hfits : Reaches d.initialBufSize M (head.length + 2))
    (hrest : d.rest = head ++ nlnl nl ++ rest) :
    ∃ b, d.readUntil nl M = (head ++ nlnl nl, none, { d with rest := rest, eof := b }) := by
  have hfirst : FirstAt (nlnl nl) d.rest head.length := by
    rw [hrest]
    exact firstAt_append hhead
  obtain ⟨b, hb⟩ := readUntil_of_firstAt hB hfirst hfits
  refine ⟨b, ?_⟩
  rw [hb, hrest, append_assoc, take_length_add_append, drop_length_add_append]
  rfl

/-- `readUntil` on a signature: to the blank line its newline and the next assertion's make, or
to the end of the stream. -/
theorem readUntil_signature {d : Decoder α} {sig after : List α} (hB : 0 < d.initialBufSize)
    (hsig : ¬ nlnl nl <:+: sig) (hfits : Reaches d.initialBufSize M (sig.length + 2))
    (hafter : after = [] ∨ ∃ more, after = nl :: more) (hrest : d.rest = terminated nl sig ++ after) :
    ∃ b, d.readUntil nl M = (terminated nl sig ++ after.take 1,
      (if after = [] then some .eof else none), { d with rest := after.tail, eof := b }) := by
  obtain ⟨s, hs⟩ : ∃ s, terminated nl sig = s ++ [nl] := terminated_eq_append sig
  have hts : ¬ nlnl nl <:+: terminated nl sig := not_nlnl_infix_terminated hsig
  have hlen : (terminated nl sig).length ≤ sig.length + 1 := length_terminated_le sig
  rcases hafter with rfl | ⟨more, rfl⟩
  · -- the last signature runs to the end of the stream
    rw [append_nil] at hrest
    refine ⟨true, ?_⟩
    rw [readUntil_of_no_occurrence hB (hrest ▸ hts) (hfits.mono (by rw [hrest]; omega)), hrest]
    simp
  · -- the newline before the next assertion makes a blank line with the signature's last one
    have hrest' : d.rest = s ++ nlnl nl ++ more := by
      rw [hrest, hs]
      simp [nlnl]
    have hs' : ¬ nlnl nl <:+: s ++ [nl] := hs ▸ hts
    have hslen : s.length + 2 ≤ sig.length + 2 := by
      have := congrArg length hs
      simp only [length_append, length_singleton] at this
      omega
    obtain ⟨b, hb⟩ := readUntil_head hB hs' (hfits.mono hslen) hrest'
    refine ⟨b, ?_⟩
    rw [hb, hs]
    simp [nlnl]

omit [DecidableEq α] in
theorem readExact_append {d : Decoder α} {body rest : List α} (hrest : d.rest = body ++ rest) :
    d.readExact body.length =
      (.ok body, { d with rest := rest, eof := d.eof || decide (d.rest.length < body.length) }) := by
  simp [Decoder.readExact, Decoder.peek, Decoder.discard, hrest]

theorem normalize_signature {sig after : List α} (hsig : ¬ nlnl nl <:+: sig)
    (hafter : after = [] ∨ ∃ more, after = nl :: more) :
    (if nlnl nl <:+ terminated nl sig ++ after.take 1 then
      (terminated nl sig ++ after.take 1).dropLast else terminated nl sig ++ after.take 1) =
      terminated nl sig := by
  rcases hafter with rfl | ⟨more, rfl⟩
  · have hnot : ¬ nlnl nl <:+ terminated nl sig := fun h =>
      not_nlnl_infix_terminated hsig h.isInfix
    simp [hnot]
  · obtain ⟨s, hs⟩ : ∃ s, terminated nl sig = s ++ [nl] := terminated_eq_append sig
    have hsuf : nlnl nl <:+ terminated nl sig ++ [nl] := ⟨s, by rw [hs]; simp [nlnl]⟩
    simp [hsuf]

end Parts

section Assertion

variable {α H A : Type} [DecidableEq α] {nl : α}

/-- An assertion the stream carries back, with headers `head`, body and signature: the headers
have no blank line and do not end with a newline; the signature is not empty, does not start with
a newline and has no blank line; the headers parse, with a `body-length` that is the body's and
within the limits; and the headers and the signature are read within the sizes `readUntil` peeks. -/
structure Framed (nl : α) (F : Format α H A) (bufSize maxHeaders maxBody maxSig : Nat)
    (head body sig : List α) : Prop where
  head_blank : ¬ nlnl nl <:+: head ++ [nl]
  sig_ne_nil : sig ≠ []
  sig_start : sig.head? ≠ some nl
  sig_blank : ¬ nlnl nl <:+: sig
  parses : ∃ headers, F.parseHeaders head = .ok headers ∧ F.bodyLength headers = .ok body.length ∧
    (F.typeMaxBodySize headers = 0 ∨ body.length ≤ F.typeMaxBodySize headers) ∧ body.length ≤ maxBody
  head_fits : Reaches bufSize maxHeaders (head.length + 2)
  sig_fits : Reaches bufSize maxSig (sig.length + 2)

omit [DecidableEq α] in
theorem not_nlnl_infix_of_concat {l : List α} (h : ¬ nlnl nl <:+: l ++ [nl]) : ¬ nlnl nl <:+: l :=
  fun hl => h (hl.trans (prefix_append l [nl]).isInfix)

omit [DecidableEq α] in
/-- No blank line starts at the separator's second newline: the signature does not start with a
newline and has no blank line. -/
theorem not_nlnl_infix_cons {sig : List α} (hstart : sig.head? ≠ some nl)
    (hsig : ¬ nlnl nl <:+: sig) : ¬ nlnl nl <:+: nl :: sig := by
  rw [infix_cons_iff]
  rintro (hpre | hinf)
  · obtain ⟨t, ht⟩ := hpre
    apply hstart
    cases sig with
    | nil => simp [nlnl] at ht
    | cons a sig => simp_all [nlnl]
  · exact hsig hinf

theorem decode_encode {F : Format α H A} {head body sig : List α} {headers : H}
    (hhead : ¬ nlnl nl <:+: head ++ [nl]) (hstart : sig.head? ≠ some nl)
    (hsig : ¬ nlnl nl <:+: sig) (hparse : F.parseHeaders head = .ok headers) :
    decode nl F (encode nl (signedContent nl head body) sig) =
      F.assemble headers body (signedContent nl head body) sig := by
  have hlast := lastIndex?_append (l := signedContent nl head body) nlnl_ne_nil
    (not_nlnl_infix_cons hstart hsig)
  simp only [decode, encode] at hlast ⊢
  rw [hlast]
  dsimp only
  rw [append_assoc, take_left' rfl, drop_length_add_append]
  by_cases hbody : body = []
  · subst hbody
    rw [show signedContent nl head [] = head from if_pos rfl,
      index?_eq_none_of_no_occurrence (not_nlnl_infix_of_concat hhead)]
    simp [hparse, nlnl]
  · rw [show signedContent nl head body = head ++ nlnl nl ++ body from if_neg hbody,
      index?_append hhead]
    simp [hparse, nlnl]

/-- `Decode` past headers that parse, with a body length within the limits: the body, then the
trailer. -/
theorem decode_of_headers {F : Format α H A} {d d1 d2 : Decoder α} {head body : List α}
    {headers : H} {length : Nat}
    (hread : d.readUntil nl d.maxHeadersSize = (head ++ nlnl nl, none, d1))
    (hparse : F.parseHeaders head = .ok headers) (hlength : F.bodyLength headers = .ok length)
    (htype : F.typeMaxBodySize headers = 0 ∨ length ≤ F.typeMaxBodySize headers)
    (hmax : length ≤ d1.defaultMaxBodySize)
    (hbody : (if 0 < length then d1.readExact length else (.ok [], d1)) = (.ok body, d2)) :
    d.decode nl F = d2.decodeTrailer nl F headers (head ++ nlnl nl) body length := by
  have htake : (head ++ nlnl nl).take ((head ++ nlnl nl).length - (nlnl nl).length) = head := by
    simp
  have htype' : ¬ (F.typeMaxBodySize headers ≠ 0 ∧ F.typeMaxBodySize headers < length) := by
    omega
  simp only [Decoder.decode, hread, htake, hparse, hlength, htype', if_false, not_lt.mpr hmax,
    hbody]

omit [DecidableEq α] in
theorem eof_or_none (after : List α) :
    (if after = [] then some ReadError.eof else none) = some .eof ∨
      (if after = [] then some ReadError.eof else none) = none := by
  split <;> simp

theorem decodeTrailer_no_body {F : Format α H A} {d : Decoder α} {headers : H}
    {head sig after : List α} (hB : 0 < d.initialBufSize) (hsig : ¬ nlnl nl <:+: sig)
    (hsig_ne : sig ≠ []) (hstart : sig.head? ≠ some nl)
    (hfits : Reaches d.initialBufSize d.maxSigSize (sig.length + 2))
    (hafter : after = [] ∨ ∃ more, after = nl :: more) (hrest : d.rest = terminated nl sig ++ after) :
    ∃ b, d.decodeTrailer nl F headers (head ++ nlnl nl) [] 0 =
      ((F.assemble headers [] head (terminated nl sig)).mapError .msg,
        { d with rest := after.tail, eof := b }) := by
  obtain ⟨b, hb⟩ := readUntil_signature hB hsig hfits hafter hrest
  refine ⟨b, ?_⟩
  have hne : terminated nl sig ++ after.take 1 ≠ nlnl nl := by
    obtain ⟨a, t, rfl⟩ := exists_cons_of_ne_nil hsig_ne
    intro h
    have hhead := congrArg head? h
    rw [head?_append, head?_terminated hsig_ne] at hhead
    simp_all [nlnl]
  unfold Decoder.decodeTrailer
  rcases eof_or_none after with herr | herr <;>
    simp [hb, herr, hne, normalize_signature hsig hafter]

theorem decodeTrailer_body {F : Format α H A} {d : Decoder α} {headers : H}
    {head body sig after : List α} (hB : 0 < d.initialBufSize) (hsig : ¬ nlnl nl <:+: sig)
    (hbody : body ≠ []) (hfits : Reaches d.initialBufSize d.maxSigSize (sig.length + 2))
    (hafter : after = [] ∨ ∃ more, after = nl :: more)
    (hrest : d.rest = nlnl nl ++ (terminated nl sig ++ after)) :
    ∃ b, d.decodeTrailer nl F headers (head ++ nlnl nl) body body.length =
      ((F.assemble headers body (head ++ nlnl nl ++ body) (terminated nl sig)).mapError .msg,
        { d with rest := after.tail, eof := b }) := by
  obtain ⟨b1, hb1⟩ : ∃ b, d.readUntil nl d.maxSigSize =
      ([] ++ nlnl nl, none, { d with rest := terminated nl sig ++ after, eof := b }) :=
    readUntil_head hB (by simpa using not_nlnl_infix_singleton) (hfits.mono (by simp))
      (by simpa using hrest)
  obtain ⟨b, hb⟩ := readUntil_signature (d := { d with rest := terminated nl sig ++ after, eof := b1 })
    hB hsig hfits hafter rfl
  refine ⟨b, ?_⟩
  have hlen : 0 < body.length := length_pos_iff.mpr hbody
  have hdrop : (nlnl nl ++ body).drop 2 = body := rfl
  unfold Decoder.decodeTrailer
  rcases eof_or_none after with herr | herr <;>
    simp [hb1, hb, herr, hlen, hdrop, normalize_signature hsig hafter]

/-- One `Decode` on a stream that goes on with an assertion the encoder wrote, and then nothing
or a newline and more: the assertion as `Decode` reads it alone, with the stream's signature. -/
theorem decode_framed {F : Format α H A} {head body sig after : List α} {d : Decoder α}
    (hB : 0 < d.initialBufSize)
    (hf : Framed nl F d.initialBufSize d.maxHeadersSize d.defaultMaxBodySize d.maxSigSize
      head body sig)
    (hafter : after = [] ∨ ∃ more, after = nl :: more)
    (hrest : d.rest = terminated nl (encode nl (signedContent nl head body) sig) ++ after) :
    ∃ b, d.decode nl F =
      ((decode nl F (encode nl (signedContent nl head body) (terminated nl sig))).mapError .msg,
        { d with rest := after.tail, eof := b }) := by
  obtain ⟨headers, hparse, hlength, htype, hmax⟩ := hf.parses
  have hts : ¬ nlnl nl <:+: terminated nl sig := not_nlnl_infix_terminated hf.sig_blank
  have hstart : (terminated nl sig).head? ≠ some nl := by
    rw [head?_terminated hf.sig_ne_nil]
    exact hf.sig_start
  rw [decode_encode hf.head_blank hstart hts hparse]
  rw [terminated_encode hf.sig_ne_nil] at hrest
  by_cases hbody : body = []
  · subst hbody
    have hrest1 : d.rest = head ++ nlnl nl ++ (terminated nl sig ++ after) := by
      rw [hrest]
      simp [encode, signedContent]
    obtain ⟨b1, hb1⟩ := readUntil_head hB hf.head_blank hf.head_fits hrest1
    rw [decode_of_headers hb1 hparse hlength htype hmax (if_neg (Nat.lt_irrefl 0))]
    exact decodeTrailer_no_body hB hf.sig_blank hf.sig_ne_nil hf.sig_start hf.sig_fits hafter rfl
  · -- the headers, the body, the separator and the signature
    have hcontent : signedContent nl head body = head ++ nlnl nl ++ body := if_neg hbody
    rw [hcontent] at hrest ⊢
    have hrest1 : d.rest = head ++ nlnl nl ++ (body ++ (nlnl nl ++ (terminated nl sig ++ after))) := by
      rw [hrest]
      simp [encode]
    obtain ⟨b1, hb1⟩ := readUntil_head hB hf.head_blank hf.head_fits hrest1
    rw [decode_of_headers hb1 hparse hlength htype hmax
      ((if_pos (length_pos_iff.mpr hbody)).trans (readExact_append rfl))]
    exact decodeTrailer_body hB hf.sig_blank hbody hf.sig_fits hafter rfl

theorem decode_of_rest_nil {F : Format α H A} {d : Decoder α} (hB : 0 < d.initialBufSize)
    (hrest : d.rest = []) : (d.decode nl F).1 = .error .eof := by
  have hread : d.readUntil nl d.maxHeadersSize = (d.rest, some .eof, { d with rest := [], eof := true }) :=
    readUntil_of_no_occurrence hB
    (by rw [hrest]; exact fun h => nlnl_ne_nil (eq_nil_of_infix_nil h))
    ⟨0, by simp only [hrest, length_nil, Nat.pow_zero, Nat.mul_one]; omega, Or.inl rfl⟩
  simp [Decoder.decode, hread, hrest]

/-- `WriteEncoded` of a non-empty encoded assertion: the separator, the assertion and a newline
if it does not end with one. -/
theorem writeEncoded_terminated {enc : Encoder α} {e : List α} (he : e ≠ []) :
    enc.writeEncoded nl e = .ok ⟨enc.written ++ enc.nextSep ++ terminated nl e, [nl]⟩ := by
  obtain ⟨last, hlast⟩ := Option.ne_none_iff_exists'.mp (mt getLast?_eq_none_iff.mp he)
  unfold Encoder.writeEncoded terminated
  rw [hlast]
  by_cases hnl : last = nl
  · simp [Encoder.writeSep, hnl]
  · simp [Encoder.writeSep, hnl]

theorem writeAll_of_nextSep (enc : Encoder α) (hsep : enc.nextSep = [nl]) :
    ∀ es : List (List α), (∀ e ∈ es, e ≠ []) →
      enc.writeAll nl es = .ok ⟨enc.written ++ es.flatMap (fun e => nl :: terminated nl e), [nl]⟩
  | [], _ => by
    rw [Encoder.writeAll, foldlM_nil, flatMap_nil, append_nil, ← hsep]
    rfl
  | e :: es, hne => by
    have hfirst : enc.writeEncoded nl e = _ := writeEncoded_terminated (hne e mem_cons_self)
    have hrest := writeAll_of_nextSep ⟨enc.written ++ enc.nextSep ++ terminated nl e, [nl]⟩
      rfl es (fun x hx => hne x (mem_cons_of_mem e hx))
    rw [Encoder.writeAll, foldlM_cons, hfirst]
    refine hrest.trans ?_
    simp [hsep]

theorem newEncoder_writeAll {e : List α} {es : List (List α)} (hne : ∀ x ∈ e :: es, x ≠ []) :
    (newEncoder : Encoder α).writeAll nl (e :: es) =
      .ok ⟨terminated nl e ++ es.flatMap (fun e => nl :: terminated nl e), [nl]⟩ := by
  have hfirst : (newEncoder : Encoder α).writeEncoded nl e = _ :=
    writeEncoded_terminated (hne e mem_cons_self)
  have hrest := writeAll_of_nextSep ⟨terminated nl e, [nl]⟩ rfl es
    (fun x hx => hne x (mem_cons_of_mem e hx))
  rw [Encoder.writeAll, foldlM_cons, hfirst]
  refine hrest.trans ?_
  simp

/-- An assertion as `assembleAndSign` lays it out: its headers, body and signature. -/
structure Parts (α : Type) where
  head : List α
  body : List α
  signature : List α

/-- `Encode` of the assertion. -/
def Parts.encoded (nl : α) (a : Parts α) : List α :=
  encode nl (signedContent nl a.head a.body) a.signature

omit [DecidableEq α] in
theorem encode_ne_nil {content sig : List α} : encode nl content sig ≠ [] := by
  simp [encode, nlnl]

/-- `Decode` called on a stream of encoded assertions, each but the first after a newline: each
assertion as `Decode` reads it alone, and then `io.EOF`. The induction is on the assertions after
the first, with the decoder `Decode` leaves at the next one. -/
theorem decodeRun_of_rest {F : Format α H A} :
    ∀ (a : Parts α) (as : List (Parts α)) (d : Decoder α), 0 < d.initialBufSize →
      (∀ x ∈ a :: as, Framed nl F d.initialBufSize d.maxHeadersSize d.defaultMaxBodySize
        d.maxSigSize x.head x.body x.signature) →
      d.rest = terminated nl (a.encoded nl) ++ as.flatMap (fun x => nl :: terminated nl (x.encoded nl)) →
      d.decodeRun nl F (as.length + 2) =
        (a :: as).map (fun x => (decode nl F (encode nl (signedContent nl x.head x.body)
          (terminated nl x.signature))).mapError .msg) ++ [.error .eof]
  | a, [], d, hB, hf, hrest => by
    obtain ⟨b, hb⟩ := decode_framed hB (hf a mem_cons_self) (Or.inl rfl)
      (by simpa [Parts.encoded] using hrest)
    have hend : (Decoder.decode nl F { d with rest := [], eof := b }).1 = .error .eof :=
      decode_of_rest_nil hB rfl
    simp only [Decoder.decodeRun, hb]
    simp [hend, Decoder.decodeRun]
  | a, x :: as, d, hB, hf, hrest => by
    -- the newline before the next assertion is what `Decode` leaves of the stream
    obtain ⟨b, hb⟩ := decode_framed hB (hf a mem_cons_self) (Or.inr ⟨_, rfl⟩) hrest
    have hnext := decodeRun_of_rest x as { d with rest := _, eof := b } hB
      (fun y hy => hf y (mem_cons_of_mem a hy)) rfl
    rw [show (x :: as).length + 2 = as.length + 2 + 1 from rfl, Decoder.decodeRun, hb]
    exact congrArg (_ :: ·) hnext

/-- Writing assertions with `WriteEncoded` and reading the bytes back with `Decode`, once more
than there are assertions, from any positive buffer size and limits within which each
assertion's headers and signature are read: each assertion as `Decode` reads it alone, with the
signature ended by a newline as the stream carries it, and then `io.EOF`. -/
theorem decodeRun_writeAll {F : Format α H A} {as : List (Parts α)}
    {bufSize maxHeaders maxBody maxSig : Nat} (hB : 0 < bufSize)
    (hf : ∀ a ∈ as, Framed nl F bufSize maxHeaders maxBody maxSig a.head a.body a.signature) :
    ∃ enc, newEncoder.writeAll nl (as.map (Parts.encoded nl)) = .ok enc ∧
      (newDecoderStressed enc.written bufSize maxHeaders maxBody maxSig).decodeRun nl F
          (as.length + 1) =
        as.map (fun a => (decode nl F (encode nl (signedContent nl a.head a.body)
          (terminated nl a.signature))).mapError .msg) ++ [.error .eof] := by
  cases as with
  | nil =>
    refine ⟨newEncoder, rfl, ?_⟩
    have hend : (Decoder.decode nl F (newDecoderStressed [] bufSize maxHeaders maxBody maxSig)).1 =
        .error .eof := decode_of_rest_nil hB rfl
    simp [Decoder.decodeRun, newEncoder, hend]
  | cons a as =>
    have hne : ∀ e ∈ a.encoded nl :: as.map (Parts.encoded nl), e ≠ [] := by
      simp only [mem_cons, mem_map]
      rintro _ (rfl | ⟨x, -, rfl⟩) <;> exact encode_ne_nil
    refine ⟨_, newEncoder_writeAll hne, ?_⟩
    exact decodeRun_of_rest a as _ hB hf (by simp [newDecoderStressed, flatMap_map])

/-- `NewDecoder` reads all of a header block, or a signature, within `MaxHeadersSize` (which is
also `MaxSignatureSize`): the sizes it peeks double from 4096 to exactly that. -/
theorem reaches_newDecoder {n : Nat} :
    Reaches defaultDecoderBufSize maxHeadersSize n ↔ n ≤ maxHeadersSize := by
  constructor
  · rintro ⟨k, hk, hM⟩
    rcases hM with rfl | hM
    · simp only [defaultDecoderBufSize, Nat.pow_zero, Nat.mul_one] at hk
      exact le_trans hk (by decide)
    · exact le_trans hk hM
  · intro hn
    exact ⟨5, le_trans hn (le_of_eq rfl), Or.inr (le_of_eq rfl)⟩

/-- A format that keeps the parts it is given; headers that end with `body-length: 2` have a
two-byte body. -/
def keepParts : Format Char (List Char) (List Char × List Char × List Char) where
  parseHeaders h := .ok h
  bodyLength h := .ok (if "body-length: 2".toList <:+ h then 2 else 0)
  typeMaxBodySize _ := 0
  typeName _ := ""
  assemble h b _ s := .ok (h, b, s)

/-- An assertion without a body and one with a body and a signature that ends with a newline,
written and read back by `NewDecoder`. -/
theorem two_assertions_read_back :
    ∃ enc, newEncoder.writeAll '\n' (([⟨"type: a".toList, [], "sig".toList⟩,
        ⟨"type: b\nbody-length: 2".toList, "hi".toList, "sig\n".toList⟩] : List (Parts Char)).map
          (Parts.encoded '\n')) = .ok enc ∧
      (newDecoder enc.written).decodeRun '\n' keepParts 3 =
        [.ok ("type: a".toList, [], "sig\n".toList),
          .ok ("type: b\nbody-length: 2".toList, "hi".toList, "sig\n".toList), .error .eof] := by
  obtain ⟨enc, henc, hrun⟩ := @decodeRun_writeAll Char _ _ _ '\n' keepParts
    [⟨"type: a".toList, [], "sig".toList⟩,
      ⟨"type: b\nbody-length: 2".toList, "hi".toList, "sig\n".toList⟩]
    defaultDecoderBufSize maxHeadersSize maxBodySize maxSignatureSize (by decide) (by
      simp only [mem_cons, not_mem_nil, or_false]
      rintro a (rfl | rfl)
      · exact ⟨by decide, by decide, by decide, by decide,
          ⟨_, rfl, by decide, Or.inl rfl, by decide⟩, reaches_newDecoder.mpr (by decide),
          reaches_newDecoder.mpr (by decide)⟩
      · exact ⟨by decide, by decide, by decide, by decide,
          ⟨_, rfl, by decide, Or.inl rfl, by decide⟩, reaches_newDecoder.mpr (by decide),
          reaches_newDecoder.mpr (by decide)⟩)
  exact ⟨enc, henc, hrun.trans (by decide)⟩

theorem terminated_encode_eq_head (head body sig : List α) :
    ∃ r, terminated nl (encode nl (signedContent nl head body) sig) = head ++ nlnl nl ++ r := by
  obtain ⟨e, he⟩ : ∃ e, terminated nl (encode nl (signedContent nl head body) sig) =
      encode nl (signedContent nl head body) sig ++ e := by
    unfold terminated
    split
    · exact ⟨[], (append_nil _).symm⟩
    · exact ⟨[nl], rfl⟩
  rw [he]
  unfold signedContent encode
  split
  · exact ⟨sig ++ e, by simp⟩
  · exact ⟨body ++ nlnl nl ++ sig ++ e, by simp⟩

theorem readUntilLoop_zero_size {d : Decoder α} (heof : d.eof = false) (fuel : Nat) :
    ∃ d', d.readUntilLoop nl M (fuel + 2) 0 0 =
      ([], some (.panic "runtime error: slice bounds out of range"), d') := by
  have hnone : index? (nlnl nl) [] = none := by simp [index?, nlnl]
  simp [Decoder.readUntilLoop, Decoder.peek, heof, hnone]

theorem decode_of_zero_size {F : Format α H A} {d : Decoder α} (heof : d.eof = false)
    (hzero : d.initialBufSize = 0) :
    (d.decode nl F).1 = .error (.panic "runtime error: slice bounds out of range") := by
  obtain ⟨d', hd'⟩ : ∃ d', d.readUntilLoop nl d.maxHeadersSize (d.maxHeadersSize + 2) 0 0 =
      ([], some (.panic "runtime error: slice bounds out of range"), d') :=
    readUntilLoop_zero_size heof d.maxHeadersSize
  rw [← hzero] at hd'
  simp [Decoder.decode, Decoder.readUntil, hd', ReadError.wrap]

theorem decode_of_firstAt_exceeded {F : Format α H A} {d : Decoder α} {p k : Nat}
    (hfirst : FirstAt (nlnl nl) d.rest p) (hB : 0 < d.initialBufSize)
    (hk : k < d.maxHeadersSize + 2) (hshort : d.initialBufSize * 2 ^ k < p + 2)
    (hover : d.maxHeadersSize < d.initialBufSize * 2 ^ (k + 1))
    (hM : k = 0 ∨ d.initialBufSize * 2 ^ k ≤ d.maxHeadersSize) :
    (d.decode nl F).1 = .error (.msg ("error reading assertion headers: " ++ maxSizeExceeded)) := by
  obtain ⟨d', hd'⟩ := readUntilLoop_of_firstAt_exceeded k _ 0 _ d hfirst hB hk (Nat.zero_le _)
    hshort hover hM
  rw [Int.natCast_zero] at hd'
  simp [Decoder.decode, Decoder.readUntil, hd', ReadError.wrap, ReadError.text]

/-- A decoder whose buffer starts at 3000 bytes, with the default limits, gives up on an
assertion whose header block is 100028 bytes, within `MaxHeadersSize`: the sizes it peeks
double from 3000 to 96000 and the next, 192000, is past the limit. From buffer size `0` every
`Decode` panics. -/
theorem stressed_decoder_fails_framed_stream :
    ((newDecoderStressed (terminated '\n' (encode '\n' (signedContent '\n'
        ("type: account\ndisplay-name: ".toList ++ replicate 100000 'x') []) "sig".toList))
        3000 maxHeadersSize maxBodySize maxSignatureSize).decode '\n' keepParts).1 =
      .error (.msg ("error reading assertion headers: " ++ maxSizeExceeded)) ∧
    ∀ stream : List Char,
      ((newDecoderStressed stream 0 maxHeadersSize maxBodySize maxSignatureSize).decode '\n'
        keepParts).1 = .error (.panic "runtime error: slice bounds out of range") := by
  refine ⟨decode_of_firstAt_exceeded (k := 5) (p := 100028) ?_ (show 0 < 3000 by decide)
    (show 5 < maxHeadersSize + 2 by decide) (show 3000 * 2 ^ 5 < 100028 + 2 by decide)
    (show maxHeadersSize < 3000 * 2 ^ (5 + 1) by decide)
    (Or.inr (show 3000 * 2 ^ 5 ≤ maxHeadersSize by decide)),
    fun stream => decode_of_zero_size rfl rfl⟩
  have hpre : ¬ nlnl '\n' <:+: "type: account\ndisplay-name: ".toList := by decide
  have hlast : ("type: account\ndisplay-name: ".toList ++ replicate 100000 'x').getLast? =
      some 'x' := by
    rw [getLast?_append_of_ne_nil _ (by rw [Ne, replicate_eq_nil_iff]; decide), getLast?_replicate,
      if_neg (by decide)]
  have hblank : ¬ nlnl '\n' <:+:
      "type: account\ndisplay-name: ".toList ++ replicate 100000 'x' ++ ['\n'] := by
    rw [nlnl_infix_concat, hlast]
    rintro (hx | hinf)
    · exact absurd (Option.some.inj hx) (by decide)
    · exact not_nlnl_infix_append_replicate (by decide) hpre 100000 hinf
  have hlen : ("type: account\ndisplay-name: ".toList ++ replicate 100000 'x').length =
      100028 := by
    simp only [length_append, length_replicate]
    decide
  obtain ⟨r, hr⟩ : ∃ r, terminated '\n' (encode '\n' (signedContent '\n'
      ("type: account\ndisplay-name: ".toList ++ replicate 100000 'x') []) "sig".toList) =
      "type: account\ndisplay-name: ".toList ++ replicate 100000 'x' ++ nlnl '\n' ++ r :=
    terminated_encode_eq_head _ [] _
  dsimp only [newDecoderStressed]
  rw [hr, ← hlen]
  exact firstAt_append hblank

end Assertion

end Snapd.Asserts
