import Mathlib.Data.List.TakeWhile
import Snapd.Lib.GoCompare

/-! `strutil/version.go`: the comparison of Debian version strings. A version is split at its
last `-` into the upstream part and the revision, and each is compared fragment by fragment:
a fragment is a run of digits or a run of other bytes. Two runs of digits compare by value;
anything else compares byte by byte by `chOrder`, where every digit ranks `0`, `~` ranks below
the end of the string and a missing byte reads as `0`, which ranks `-5`. Go strings are byte
lists. -/

namespace Snapd.Strutil

open GoCompare

/-- `chOrder`, the rank of each byte, as `chrorder/main.go` generates it. -/
def chOrder : List Int := [
  -5, 257, 258, 259, 260, 261, 262, 263, 264, 265, 266, 267, 268, 269, 270, 271,
  272, 273, 274, 275, 276, 277, 278, 279, 280, 281, 282, 283, 284, 285, 286, 287,
  288, 289, 290, 291, 292, 293, 294, 295, 296, 297, 298, 299, 300, 301, 302, 303,
  0, 0, 0, 0, 0, 0, 0, 0, 0, 0, 314, 315, 316, 317, 318, 319,
  320, 65, 66, 67, 68, 69, 70, 71, 72, 73, 74, 75, 76, 77, 78, 79,
  80, 81, 82, 83, 84, 85, 86, 87, 88, 89, 90, 347, 348, 349, 350, 351,
  352, 97, 98, 99, 100, 101, 102, 103, 104, 105, 106, 107, 108, 109, 110, 111,
  112, 113, 114, 115, 116, 117, 118, 119, 120, 121, 122, 379, 380, 381, -10, 383,
  384, 385, 386, 387, 388, 389, 390, 391, 392, 393, 394, 395, 396, 397, 398, 399,
  400, 401, 402, 403, 404, 405, 406, 407, 408, 409, 410, 411, 412, 413, 414, 415,
  416, 417, 418, 419, 420, 421, 422, 423, 424, 425, 426, 427, 428, 429, 430, 431,
  432, 433, 434, 435, 436, 437, 438, 439, 440, 441, 442, 443, 444, 445, 446, 447,
  448, 449, 450, 451, 452, 453, 454, 455, 456, 457, 458, 459, 460, 461, 462, 463,
  464, 465, 466, 467, 468, 469, 470, 471, 472, 473, 474, 475, 476, 477, 478, 479,
  480, 481, 482, 483, 484, 485, 486, 487, 488, 489, 490, 491, 492, 493, 494, 495,
  496, 497, 498, 499, 500, 501, 502, 503, 504, 505, 506, 507, 508, 509, 510, 511]

/-- `chOrder[c]` -/
def rank (c : UInt8) : Int := chOrder.getD c.toNat 0

/-- `'0' <= c && c <= '9'` -/
def isDigit (c : UInt8) : Bool := 48 ≤ c && c ≤ 57

/-- One index of `cmpString`: the ranks of the two bytes decide, or the rest does. -/
def cmpRank (a b : UInt8) (next : Int) : Int :=
  if rank a < rank b then -1 else if rank a > rank b then 1 else next

/-- The loop of `cmpString` over the `n` indices left, a missing byte read as `0`. -/
def cmpStringLoop : Nat → List UInt8 → List UInt8 → Int
  | 0, _, _ => 0
  | n + 1, as, bs => cmpRank (as.headD 0) (bs.headD 0) (cmpStringLoop n as.tail bs.tail)

/-- `cmpString`: byte by byte up to the longer length. -/
def cmpString (as bs : List UInt8) : Int := cmpStringLoop (max as.length bs.length) as bs

def trimLeadingZeroes (a : List UInt8) : List UInt8 := a.dropWhile (· = 48)

/-- The loop of `cmpNumeric`, over two runs of digits of one length. -/
def cmpDigits : List UInt8 → List UInt8 → Int
  | x :: xs, y :: ys => if x > y then 1 else if x < y then -1 else cmpDigits xs ys
  | _, _ => 0

/-- `cmpNumeric`: two runs of digits by their values, the longer one without its leading
zeros being the larger. -/
def cmpNumeric (a b : List UInt8) : Int :=
  let a := trimLeadingZeroes a
  let b := trimLeadingZeroes b
  if a.length > b.length then 1
  else if a.length < b.length then -1
  else cmpDigits a b

/-- `matchEpoch`: digits followed by a `:`. -/
def matchEpoch : List UInt8 → Bool
  | [] => false
  | c :: rest => isDigit c && (rest.dropWhile isDigit).head? = some 58

/-- `versionIsValid`: a version has no epoch. -/
def versionIsValid (a : List UInt8) : Bool := !matchEpoch a

/-- `nextFrag`: the leading run of digits or of other bytes, what follows it, and whether the
run is numeric. -/
def nextFrag : List UInt8 → List UInt8 × List UInt8 × Bool
  | [] => ([], [], false)
  | c :: s =>
    if isDigit c then ((c :: s).takeWhile isDigit, (c :: s).dropWhile isDigit, true)
    else ((c :: s).takeWhile (!isDigit ·), (c :: s).dropWhile (!isDigit ·), false)

/-- The loop of `compareSubversion`, for at most `fuel` rounds, until the fragments differ or
both strings are used up. -/
def compareSubversionLoop : Nat → List UInt8 → List UInt8 → Int
  | 0, _, _ => 0
  | fuel + 1, va, vb =>
    let (a, va, anum) := nextFrag va
    let (b, vb, bnum) := nextFrag vb
    if a = [] ∧ b = [] then 0
    else
      let res := if anum && bnum then cmpNumeric a b else cmpString a b
      if res = 0 then compareSubversionLoop fuel va vb else res

/-- `compareSubversion`: each round takes a byte or more, so the lengths bound the rounds. -/
def compareSubversion (va vb : List UInt8) : Int :=
  compareSubversionLoop (va.length + vb.length + 1) va vb

def lastIndexByte (s : List UInt8) (c : UInt8) : Option Nat :=
  (s.reverse.findIdx? (· = c)).map fun i => s.length - 1 - i

/-- The upstream part before the last `-` and the revision after it, `0` without one. -/
def splitRevision (v : List UInt8) : List UInt8 × List UInt8 :=
  match lastIndexByte v 45 with
  | none => (v, [48])
  | some i => (v.take i, v.drop (i + 1))

/-- `%q` of a version, for ASCII text. -/
def quotedBytes (s : List UInt8) : String :=
  "\"" ++ String.ofList (s.map fun b => Char.ofNat b.toNat) ++ "\""

/-- `VersionCompare`: `-1`, `0` or `1`. -/
def versionCompare (va vb : List UInt8) : Except String Int :=
  if !versionIsValid va then .error ("invalid version " ++ quotedBytes va)
  else if !versionIsValid vb then .error ("invalid version " ++ quotedBytes vb)
  else
    let (va, sa) := splitRevision va
    let (vb, sb) := splitRevision vb
    let res := compareSubversion va vb
    if res ≠ 0 then .ok res else .ok (compareSubversion sa sb)

/-- The rank `chOrder` gives a byte by its code: `-5` for NUL, `0` for digits, the code for
letters, `-10` for `~`, and the code after all letters for the other bytes. -/
def chRank (n : Nat) : Int :=
  if n = 0 then -5
  else if 48 ≤ n ∧ n ≤ 57 then 0
  else if (65 ≤ n ∧ n ≤ 90) ∨ (97 ≤ n ∧ n ≤ 122) then n
  else if n = 126 then -10
  else n + 256

theorem chOrder_eq_map : chOrder = (List.range 256).map chRank := by
  decide +kernel

theorem rank_eq (c : UInt8) : rank c = chRank c.toNat := by
  rw [rank, chOrder_eq_map, List.getD_eq_getElem?_getD, List.getElem?_map,
    List.getElem?_range (UInt8.toNat_lt_size c)]
  rfl

theorem isDigit_iff (c : UInt8) : isDigit c = true ↔ 48 ≤ c.toNat ∧ c.toNat ≤ 57 := by
  simp [isDigit, UInt8.le_iff_toNat_le]

theorem rank_of_isDigit {c : UInt8} (h : isDigit c = true) : rank c = 0 := by
  have hc := (isDigit_iff c).mp h
  rw [rank_eq, chRank]
  split_ifs <;> omega

theorem rank_ne_zero {c : UInt8} (h : isDigit c = false) : rank c ≠ 0 := by
  have hc : ¬(48 ≤ c.toNat ∧ c.toNat ≤ 57) := fun h' => by simp [(isDigit_iff c).mpr h'] at h
  rw [rank_eq, chRank]
  split_ifs <;> omega

theorem rank_nul : rank 0 = -5 := rfl

theorem rank_ne_nul {c : UInt8} (h : c ≠ 0) : rank c ≠ -5 := by
  have hc : c.toNat ≠ 0 := fun h' => h (UInt8.toNat_inj.mp h')
  rw [rank_eq, chRank]
  split_ifs <;> omega

/-! ## Fragments compare by keys

A run of other bytes compares as the ranks of its bytes ended by the `-5` of the padding,
and a run of digits as its length and digits once the leading zeros are gone, after a `0`
that only digits rank. -/

theorem cmpRank_of_eq {a b : UInt8} (h : rank a = rank b) (next : Int) :
    cmpRank a b next = next := by
  simp [cmpRank, h]

theorem cmpRank_of_ne {a b : UInt8} (h : rank a ≠ rank b) (next : Int) :
    cmpRank a b next = ofOrdering (compare (rank a) (rank b)) := by
  rw [cmpRank, ofOrdering_compare_int]
  split_ifs <;> omega

/-- No byte but NUL ranks as the padding does, so padding to one length is ending each
string with one `-5`. -/
theorem cmpStringLoop_eq {n : Nat} {as bs : List UInt8} (hn : max as.length bs.length = n)
    (ha : (0 : UInt8) ∉ as) (hb : (0 : UInt8) ∉ bs) :
    cmpStringLoop n as bs = ofOrdering (compare (as.map rank ++ [-5]) (bs.map rank ++ [-5])) := by
  induction n generalizing as bs with
  | zero =>
    obtain ⟨rfl, rfl⟩ : as = [] ∧ bs = [] := by
      simpa [List.length_eq_zero_iff] using Nat.max_eq_zero_iff.mp hn
    rw [Std.ReflOrd.compare_self]
    rfl
  | succ n ih =>
    rcases as with _ | ⟨a, as⟩ <;> rcases bs with _ | ⟨b, bs⟩
    · simp at hn
    · -- the first string is used up: the padding meets a byte that is not NUL
      have hb0 : rank b ≠ -5 := rank_ne_nul fun h => hb (h ▸ List.mem_cons_self)
      have hne : rank 0 ≠ rank b := by rw [rank_nul]; exact hb0.symm
      rw [cmpStringLoop, List.headD_nil, List.headD_cons, cmpRank_of_ne hne, rank_nul,
        List.map_nil, List.nil_append, List.map_cons, List.cons_append,
        compare_cons_of_ne _ _ (mt Int.compare_eq_eq.mp hb0.symm)]
    · have ha0 : rank a ≠ -5 := rank_ne_nul fun h => ha (h ▸ List.mem_cons_self)
      have hne : rank a ≠ rank 0 := by rw [rank_nul]; exact ha0
      rw [cmpStringLoop, List.headD_nil, List.headD_cons, cmpRank_of_ne hne, rank_nul,
        List.map_nil, List.nil_append, List.map_cons, List.cons_append,
        compare_cons_of_ne _ _ (mt Int.compare_eq_eq.mp ha0)]
    · have has : (0 : UInt8) ∉ as := fun h => ha (List.mem_cons_of_mem _ h)
      have hbs : (0 : UInt8) ∉ bs := fun h => hb (List.mem_cons_of_mem _ h)
      have hn' : max as.length bs.length = n := by
        simp only [List.length_cons, Nat.succ_max_succ] at hn
        omega
      rw [cmpStringLoop, List.headD_cons, List.headD_cons, List.tail_cons, List.tail_cons]
      simp only [List.map_cons, List.cons_append]
      by_cases hab : rank a = rank b
      · rw [cmpRank_of_eq hab, ih hn' has hbs, compare_cons_of_eq _ _ (Int.compare_eq_eq.mpr hab)]
      · rw [cmpRank_of_ne hab, compare_cons_of_ne _ _ (mt Int.compare_eq_eq.mp hab)]

theorem cmpString_eq {as bs : List UInt8} (ha : (0 : UInt8) ∉ as) (hb : (0 : UInt8) ∉ bs) :
    cmpString as bs = ofOrdering (compare (as.map rank ++ [-5]) (bs.map rank ++ [-5])) :=
  cmpStringLoop_eq rfl ha hb

theorem cmpDigits_eq {xs ys : List UInt8} (h : xs.length = ys.length) :
    cmpDigits xs ys = ofOrdering (compare (xs.map fun b => (b.toNat : Int))
      (ys.map fun b => (b.toNat : Int))) := by
  induction xs generalizing ys with
  | nil =>
    rw [List.length_nil, eq_comm, List.length_eq_zero_iff] at h
    subst h
    rfl
  | cons x xs ih =>
    obtain _ | ⟨y, ys⟩ := ys
    · simp at h
    simp only [List.map_cons]
    by_cases hxy : x.toNat = y.toNat
    · have hxy' : x = y := UInt8.toNat_inj.mp hxy
      subst hxy'
      have hx : ¬x < x := by simp
      rw [cmpDigits, if_neg hx, if_neg hx, ih (by simpa using h),
        compare_cons_of_eq _ _ (Int.compare_eq_eq.mpr rfl)]
    · have hne : (x.toNat : Int) ≠ y.toNat := by omega
      rw [cmpDigits, compare_cons_of_ne _ _ (mt Int.compare_eq_eq.mp hne), ofOrdering_compare_int]
      rcases Nat.lt_or_gt_of_ne hxy with hlt | hgt
      · have hyx : ¬y < x := by rw [UInt8.lt_iff_toNat_lt]; omega
        rw [if_neg hyx, if_pos (UInt8.lt_iff_toNat_lt.mpr hlt), if_pos (by omega)]
      · have hxy' : ¬(x.toNat : Int) < y.toNat := by omega
        rw [if_pos (UInt8.lt_iff_toNat_lt.mpr hgt), if_neg hxy', if_pos (by omega)]

/-- The key a fragment compares by: a run of digits as `0`, then the length and the digits of
its value without leading zeros; other text as the ranks of its bytes and then `-5`. -/
def fragKey (frag : List UInt8) (numeric : Bool) : List Int :=
  if numeric then
    0 :: ((trimLeadingZeroes frag).length : Int) ::
      (trimLeadingZeroes frag).map fun b => (b.toNat : Int)
  else frag.map rank ++ [-5]

theorem fragKey_false (frag : List UInt8) : fragKey frag false = frag.map rank ++ [-5] := rfl

theorem cmpNumeric_eq (a b : List UInt8) :
    cmpNumeric a b = ofOrdering (compare (fragKey a true) (fragKey b true)) := by
  simp only [fragKey, if_true]
  rw [compare_cons_of_eq _ _ (Int.compare_eq_eq.mpr rfl)]
  by_cases hlen : (trimLeadingZeroes a).length = (trimLeadingZeroes b).length
  · -- one length: the digits decide, from the first
    rw [compare_cons_of_eq _ _ (Int.compare_eq_eq.mpr (by rw [hlen])), cmpNumeric,
      if_neg (by omega), if_neg (by omega), cmpDigits_eq hlen]
  · have hne : ((trimLeadingZeroes a).length : Int) ≠ (trimLeadingZeroes b).length := by
      exact_mod_cast hlen
    rw [compare_cons_of_ne _ _ (mt Int.compare_eq_eq.mp hne), ofOrdering_compare_int, cmpNumeric]
    split_ifs <;> omega

/-- What `nextFrag` returns: a run without NUL bytes, of digits exactly when it is numeric,
and not empty when it is numeric. -/
structure Fragment (frag : List UInt8) (numeric : Bool) : Prop where
  no_nul : (0 : UInt8) ∉ frag
  isDigit_eq : ∀ c ∈ frag, isDigit c = numeric
  ne_nil : numeric = true → frag ≠ []

theorem Fragment.ranks_of_true {frag : List UInt8} (h : Fragment frag true) :
    ∃ t, frag.map rank ++ [-5] = 0 :: t := by
  obtain _ | ⟨c, frag⟩ := frag
  · exact absurd rfl (h.ne_nil rfl)
  · exact ⟨_, by rw [List.map_cons, List.cons_append, rank_of_isDigit (h.isDigit_eq c List.mem_cons_self)]⟩

theorem Fragment.fragKey_of_false {frag : List UInt8} (h : Fragment frag false) :
    ∃ r t, fragKey frag false = r :: t ∧ r ≠ 0 := by
  obtain _ | ⟨c, frag⟩ := frag
  · exact ⟨-5, [], rfl, by decide⟩
  · exact ⟨rank c, _, by rw [fragKey_false, List.map_cons, List.cons_append],
      rank_ne_zero (h.isDigit_eq c List.mem_cons_self)⟩

theorem cmpFrag_eq {a b : List UInt8} {anum bnum : Bool} (ha : Fragment a anum)
    (hb : Fragment b bnum) :
    (if anum && bnum then cmpNumeric a b else cmpString a b) =
      ofOrdering (compare (fragKey a anum) (fragKey b bnum)) := by
  cases anum <;> cases bnum
  · exact cmpString_eq ha.no_nul hb.no_nul
  · -- other text against digits: the first ranks decide, and only digits rank `0`
    obtain ⟨r, t, hak, hr⟩ := ha.fragKey_of_false
    obtain ⟨t', hbk⟩ := hb.ranks_of_true
    rw [Bool.false_and, if_neg Bool.false_ne_true, cmpString_eq ha.no_nul hb.no_nul,
      ← fragKey_false, hak, hbk, compare_cons_of_ne _ _ (mt Int.compare_eq_eq.mp hr), fragKey,
      if_pos rfl, compare_cons_of_ne _ _ (mt Int.compare_eq_eq.mp hr)]
  · obtain ⟨t', hak⟩ := ha.ranks_of_true
    obtain ⟨r, t, hbk, hr⟩ := hb.fragKey_of_false
    rw [Bool.true_and, if_neg Bool.false_ne_true, cmpString_eq ha.no_nul hb.no_nul, hak,
      ← fragKey_false, hbk, compare_cons_of_ne _ _ (mt Int.compare_eq_eq.mp (Ne.symm hr)),
      fragKey, if_pos rfl, compare_cons_of_ne _ _ (mt Int.compare_eq_eq.mp (Ne.symm hr))]
  · exact cmpNumeric_eq a b

theorem nextFrag_cons (c : UInt8) (s : List UInt8) : nextFrag (c :: s) =
    if isDigit c then ((c :: s).takeWhile isDigit, (c :: s).dropWhile isDigit, true)
    else ((c :: s).takeWhile (!isDigit ·), (c :: s).dropWhile (!isDigit ·), false) := rfl

theorem nextFrag_append (v : List UInt8) : (nextFrag v).1 ++ (nextFrag v).2.1 = v := by
  cases v with
  | nil => rfl
  | cons c s =>
    rw [nextFrag_cons]
    split_ifs <;> exact List.takeWhile_append_dropWhile

theorem nextFrag_fst_eq_nil {v : List UInt8} : (nextFrag v).1 = [] ↔ v = [] := by
  cases v with
  | nil => exact iff_of_true rfl rfl
  | cons c s =>
    refine iff_of_false ?_ (List.cons_ne_nil c s)
    rw [nextFrag_cons]
    split_ifs with hc
    · rw [List.takeWhile_cons_of_pos hc]
      exact List.cons_ne_nil _ _
    · rw [List.takeWhile_cons_of_pos (by simpa using hc)]
      exact List.cons_ne_nil _ _

theorem nextFrag_fragment {v : List UInt8} (h : (0 : UInt8) ∉ v) :
    Fragment (nextFrag v).1 (nextFrag v).2.2 := by
  cases v with
  | nil => exact ⟨List.not_mem_nil, fun _ hc => absurd hc List.not_mem_nil, Bool.false_ne_true.elim⟩
  | cons c s =>
    have hsub : ∀ x ∈ (nextFrag (c :: s)).1, x ∈ c :: s := fun x hx =>
      nextFrag_append (c :: s) ▸ List.mem_append_left _ hx
    refine ⟨fun h0 => h (hsub 0 h0), ?_, fun _ => (mt nextFrag_fst_eq_nil.mp) (List.cons_ne_nil c s)⟩
    rw [nextFrag_cons]
    split_ifs with hc
    · exact fun x hx => List.mem_takeWhile_imp hx
    · exact fun x hx => by simpa using List.mem_takeWhile_imp hx

theorem nextFrag_rest_no_nul {v : List UInt8} (h : (0 : UInt8) ∉ v) :
    (0 : UInt8) ∉ (nextFrag v).2.1 := fun h0 =>
  h (nextFrag_append v ▸ List.mem_append_right _ h0)

theorem nextFrag_rest_lt {v : List UInt8} (h : (nextFrag v).1 ≠ []) :
    (nextFrag v).2.1.length < v.length := by
  have hlen := congrArg List.length (nextFrag_append v)
  rw [List.length_append] at hlen
  have hpos := List.length_pos_of_ne_nil h
  omega

/-- The key of a subversion: the keys of its fragments, then the key `[-5]` of the empty
fragment that ends it. -/
def subversionKey (v : List UInt8) : List (List Int) :=
  if h : (nextFrag v).1 = [] then [[-5]]
  else fragKey (nextFrag v).1 (nextFrag v).2.2 :: subversionKey (nextFrag v).2.1
termination_by v.length
decreasing_by exact nextFrag_rest_lt h

theorem subversionKey_eq (v : List UInt8) : subversionKey v =
    if (nextFrag v).1 = [] then [[-5]]
    else fragKey (nextFrag v).1 (nextFrag v).2.2 :: subversionKey (nextFrag v).2.1 := by
  rw [subversionKey, dite_eq_ite]

theorem Fragment.fragKey_eq_end {frag : List UInt8} {numeric : Bool} (h : Fragment frag numeric) :
    fragKey frag numeric = [-5] ↔ frag = [] := by
  cases numeric with
  | false =>
    rw [fragKey_false]
    constructor
    · intro he
      have hlen := congrArg List.length he
      simpa using hlen
    · rintro rfl
      rfl
  | true => exact iff_of_false (by simp [fragKey]) (h.ne_nil rfl)

/-- The loop of `compareSubversion`, with more rounds than the strings have bytes, compares
the keys of the two subversions. The induction is on the rounds; each round takes the next
fragment of both strings, which `cmpFrag_eq` compares by their keys. -/
theorem compareSubversionLoop_eq {fuel : Nat} {va vb : List UInt8}
    (hfuel : va.length + vb.length < fuel) (ha : (0 : UInt8) ∉ va) (hb : (0 : UInt8) ∉ vb) :
    compareSubversionLoop fuel va vb =
      ofOrdering (compare (subversionKey va) (subversionKey vb)) := by
  induction fuel generalizing va vb with
  | zero => omega
  | succ f ih =>
    have hfa := nextFrag_fragment ha
    have hfb := nextFrag_fragment hb
    have hres := cmpFrag_eq hfa hfb
    rw [subversionKey_eq va, subversionKey_eq vb]
    rcases hA : nextFrag va with ⟨a, va', anum⟩
    rcases hB : nextFrag vb with ⟨b, vb', bnum⟩
    rw [hA] at hfa hres
    rw [hB] at hfb hres
    dsimp only at hfa hfb hres
    simp only [compareSubversionLoop, hA, hB]
    by_cases hend : a = [] ∧ b = []
    · obtain ⟨rfl, rfl⟩ := hend
      rw [if_pos ⟨rfl, rfl⟩, if_pos rfl, if_pos rfl, Std.ReflOrd.compare_self]
      rfl
    rw [if_neg hend, hres]
    by_cases hkey : compare (fragKey a anum) (fragKey b bnum) = .eq
    · -- equal keys: neither string has ended, and the rest of both decides
      have hab := Std.LawfulEqOrd.eq_of_compare hkey
      have ha' : a ≠ [] := fun h =>
        hend ⟨h, hfb.fragKey_eq_end.mp (hab ▸ hfa.fragKey_eq_end.mpr h)⟩
      have hb' : b ≠ [] := fun h =>
        hend ⟨hfa.fragKey_eq_end.mp (hab.symm ▸ hfb.fragKey_eq_end.mpr h), h⟩
      have hla := nextFrag_rest_lt (v := va) (by rw [hA]; exact ha')
      have hlb := nextFrag_rest_lt (v := vb) (by rw [hB]; exact hb')
      rw [hA] at hla
      rw [hB] at hlb
      have hna : (0 : UInt8) ∉ va' := by simpa [hA] using nextFrag_rest_no_nul ha
      have hnb : (0 : UInt8) ∉ vb' := by simpa [hB] using nextFrag_rest_no_nul hb
      rw [hkey, if_pos (ofOrdering_eq_zero.mpr rfl), if_neg ha', if_neg hb',
        compare_cons_of_eq _ _ hkey,
        ih (by simp only at hla hlb; omega) hna hnb]
    · have hne : ofOrdering (compare (fragKey a anum) (fragKey b bnum)) ≠ 0 :=
        mt ofOrdering_eq_zero.mp hkey
      rw [if_neg hne]
      by_cases ha' : a = []
      · -- `a` is the end: its key `[-5]` is all that is left of the first key
        rw [if_pos ha', if_neg (fun hb' => hend ⟨ha', hb'⟩)]
        subst ha'
        rw [show fragKey [] anum = [-5] from (hfa.fragKey_eq_end).mpr rfl] at hkey ⊢
        rw [compare_cons_of_ne _ _ hkey]
      · rw [if_neg ha']
        by_cases hb' : b = []
        · subst hb'
          rw [show fragKey [] bnum = [-5] from (hfb.fragKey_eq_end).mpr rfl] at hkey ⊢
          rw [if_pos rfl, compare_cons_of_ne _ _ hkey]
        · rw [if_neg hb', compare_cons_of_ne _ _ hkey]

theorem compareSubversion_eq {va vb : List UInt8} (ha : (0 : UInt8) ∉ va)
    (hb : (0 : UInt8) ∉ vb) :
    compareSubversion va vb = ofOrdering (compare (subversionKey va) (subversionKey vb)) :=
  compareSubversionLoop_eq (Nat.lt_succ_self _) ha hb

theorem splitRevision_no_nul {v : List UInt8} (h : (0 : UInt8) ∉ v) :
    (0 : UInt8) ∉ (splitRevision v).1 ∧ (0 : UInt8) ∉ (splitRevision v).2 := by
  unfold splitRevision
  split
  · exact ⟨h, by simp⟩
  · exact ⟨fun h0 => h (List.mem_of_mem_take h0), fun h0 => h (List.mem_of_mem_drop h0)⟩

/-- The key of a version: the key of its upstream part, then that of its revision. -/
def versionKey (v : List UInt8) : List (List (List Int)) :=
  [subversionKey (splitRevision v).1, subversionKey (splitRevision v).2]

/-- `VersionCompare` of two versions without epoch or NUL bytes compares their keys: the
upstream parts first, then the revisions. -/
theorem versionCompare_eq {va vb : List UInt8} (hva : versionIsValid va = true)
    (hvb : versionIsValid vb = true) (ha : (0 : UInt8) ∉ va) (hb : (0 : UInt8) ∉ vb) :
    versionCompare va vb = .ok (ofOrdering (compare (versionKey va) (versionKey vb))) := by
  obtain ⟨ha1, ha2⟩ := splitRevision_no_nul ha
  obtain ⟨hb1, hb2⟩ := splitRevision_no_nul hb
  rw [versionKey, versionKey]
  rcases hsa : splitRevision va with ⟨ua, ra⟩
  rcases hsb : splitRevision vb with ⟨ub, rb⟩
  rw [hsa] at ha1 ha2
  rw [hsb] at hb1 hb2
  simp only [versionCompare, hva, hvb, hsa, hsb, Bool.not_true, Bool.false_eq_true, if_false]
  rw [compareSubversion_eq ha1 hb1, compareSubversion_eq ha2 hb2]
  by_cases hup : compare (subversionKey ua) (subversionKey ub) = .eq
  · rw [compare_cons_of_eq _ _ hup, compare_singleton, hup, if_neg (by simp)]
  · rw [compare_cons_of_ne _ _ hup, if_pos (mt ofOrdering_eq_zero.mp hup)]

/-- `VersionCompare` is a total preorder on versions without epoch or NUL bytes: it is
antisymmetric, a version equals itself, and `≤ 0` is transitive. -/
theorem versionCompare_total_preorder {a b c : List UInt8}
    (hva : versionIsValid a = true) (hvb : versionIsValid b = true)
    (hvc : versionIsValid c = true) (ha : (0 : UInt8) ∉ a) (hb : (0 : UInt8) ∉ b)
    (hc : (0 : UInt8) ∉ c) :
    (∃ r, versionCompare a b = .ok r ∧ versionCompare b a = .ok (-r)) ∧
    versionCompare a a = .ok 0 ∧
    ∀ r s, versionCompare a b = .ok r → versionCompare b c = .ok s → r ≤ 0 → s ≤ 0 →
      ∃ t, versionCompare a c = .ok t ∧ t ≤ 0 := by
  refine ⟨⟨_, versionCompare_eq hva hvb ha hb, ?_⟩, ?_, ?_⟩
  · rw [versionCompare_eq hvb hva hb ha, ofOrdering_compare_swap versionKey a b, Int.neg_neg]
  · rw [versionCompare_eq hva hva ha ha, ofOrdering_compare_self versionKey a]
  · intro r s hr hs hr0 hs0
    rw [versionCompare_eq hva hvb ha hb, Except.ok.injEq] at hr
    rw [versionCompare_eq hvb hvc hb hc, Except.ok.injEq] at hs
    subst hr hs
    exact ⟨_, versionCompare_eq hva hvc ha hc, ofOrdering_compare_trans versionKey hr0 hs0⟩

/-- The bytes of an ASCII text. -/
def asciiBytes (s : String) : List UInt8 := s.toList.map fun c => c.toNat.toUInt8

example : versionCompare (asciiBytes "1.0~rc1") (asciiBytes "1.0") = .ok (-1) := by decide

example : versionCompare (asciiBytes "1.10") (asciiBytes "1.9-3") = .ok 1 := by decide

theorem versionCompare_total_preorder_on_releases :
    (∃ r, versionCompare (asciiBytes "2.61~rc1") (asciiBytes "2.61-1") = .ok r ∧
      versionCompare (asciiBytes "2.61-1") (asciiBytes "2.61~rc1") = .ok (-r)) ∧
    versionCompare (asciiBytes "2.61~rc1") (asciiBytes "2.61~rc1") = .ok 0 ∧
    ∀ r s, versionCompare (asciiBytes "2.61~rc1") (asciiBytes "2.61-1") = .ok r →
      versionCompare (asciiBytes "2.61-1") (asciiBytes "2.61.1") = .ok s → r ≤ 0 → s ≤ 0 →
      ∃ t, versionCompare (asciiBytes "2.61~rc1") (asciiBytes "2.61.1") = .ok t ∧ t ≤ 0 :=
  versionCompare_total_preorder (by decide) (by decide) (by decide) (by decide) (by decide)
    (by decide)

end Snapd.Strutil
