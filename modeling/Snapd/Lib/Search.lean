import Mathlib.Data.List.Infix

/-! Searching a list for a pattern, as `bytes.Index` and `bytes.LastIndex` do: the first and the
last position at which the pattern occurs. Each is specified by where the pattern occurs; from
that follow where it is found in a list built around one occurrence, and in a window of a list
(a prefix with its first elements dropped), which is what a reader that searches a growing
buffer sees. -/

namespace Search

open List

variable {α : Type} [DecidableEq α]

/-- The first position at which `pat` occurs in `l`. -/
def index? (pat : List α) : List α → Option Nat
  | [] => if pat = [] then some 0 else none
  | a :: l => if pat <+: a :: l then some 0 else (index? pat l).map (· + 1)

/-- The last position at which `pat` occurs in `l`. -/
def lastIndex? (pat : List α) : List α → Option Nat
  | [] => if pat = [] then some 0 else none
  | a :: l =>
    match lastIndex? pat l with
    | some i => some (i + 1)
    | none => if pat <+: a :: l then some 0 else none

/-- `pat` occurs in `l` at `i` and at no position before. -/
def FirstAt (pat l : List α) (i : Nat) : Prop :=
  pat <+: l.drop i ∧ ∀ j < i, ¬ pat <+: l.drop j

section Spec

variable {pat : List α}

omit [DecidableEq α] in
theorem prefix_drop_nil {i : Nat} (h : pat <+: ([] : List α).drop i) : pat = [] := by
  simpa using h

theorem index?_eq_some_iff : ∀ {l : List α} {i : Nat}, index? pat l = some i ↔ FirstAt pat l i
  | [], i => by
    by_cases hpat : pat = []
    · subst hpat
      cases i with
      | zero => simp [index?, FirstAt]
      | succ n =>
        simp [index?, FirstAt]
        exact ⟨0, by omega⟩
    · simp only [index?, if_neg hpat, reduceCtorEq, false_iff, FirstAt]
      exact fun h => hpat (prefix_drop_nil h.1)
  | a :: l, i => by
    by_cases hp : pat <+: a :: l
    · simp only [index?, if_pos hp, Option.some.injEq, FirstAt]
      constructor
      · rintro rfl
        exact ⟨hp, fun j hj => absurd hj (Nat.not_lt_zero j)⟩
      · rintro ⟨-, hfirst⟩
        by_contra hi
        exact hfirst 0 (Nat.pos_of_ne_zero (Ne.symm hi)) hp
    · simp only [index?, if_neg hp, Option.map_eq_some_iff]
      cases i with
      | zero =>
        constructor
        · rintro ⟨i', -, h⟩
          omega
        · rintro ⟨hocc, -⟩
          exact absurd hocc hp
      | succ i =>
        have ih := @index?_eq_some_iff l i
        constructor
        · rintro ⟨i', hi', hsucc⟩
          obtain rfl : i' = i := Nat.succ_injective hsucc
          obtain ⟨hocc, hfirst⟩ := ih.mp hi'
          refine ⟨hocc, fun j hj => ?_⟩
          cases j with
          | zero => exact hp
          | succ j => exact hfirst j (Nat.lt_of_succ_lt_succ hj)
        · rintro ⟨hocc, hfirst⟩
          exact ⟨i, ih.mpr ⟨hocc, fun j hj => hfirst (j + 1) (Nat.succ_lt_succ hj)⟩, rfl⟩

theorem index?_eq_none_iff : ∀ {l : List α}, index? pat l = none ↔ ∀ j, ¬ pat <+: l.drop j
  | [] => by
    by_cases hpat : pat = []
    · subst hpat
      simp [index?]
    · simp only [index?, if_neg hpat, true_iff]
      exact fun j h => hpat (prefix_drop_nil h)
  | a :: l => by
    by_cases hp : pat <+: a :: l
    · simp only [index?, if_pos hp, reduceCtorEq, false_iff, not_forall, not_not]
      exact ⟨0, hp⟩
    · simp only [index?, if_neg hp, Option.map_eq_none_iff, index?_eq_none_iff]
      constructor
      · intro h j
        cases j with
        | zero => exact hp
        | succ j => exact h j
      · exact fun h j => h (j + 1)

theorem lastIndex?_eq_none (hpat : pat ≠ []) :
    ∀ {l : List α}, lastIndex? pat l = none → ∀ j, ¬ pat <+: l.drop j
  | [], _, j, h => hpat (prefix_drop_nil h)
  | a :: l, hnone, j, hocc => by
    cases hl : lastIndex? pat l with
    | some i => simp [lastIndex?, hl] at hnone
    | none =>
      have hhead : ¬ pat <+: a :: l := by
        intro hp
        simp [lastIndex?, hl, hp] at hnone
      cases j with
      | zero => exact hhead hocc
      | succ j => exact lastIndex?_eq_none hpat hl j hocc

theorem lastIndex?_sound (hpat : pat ≠ []) : ∀ {l : List α} {i : Nat}, lastIndex? pat l = some i →
    pat <+: l.drop i ∧ ∀ j, i < j → ¬ pat <+: l.drop j
  | [], i, h => by simp [lastIndex?, hpat] at h
  | a :: l, i, h => by
    cases hl : lastIndex? pat l with
    | some i' =>
      simp only [lastIndex?, hl, Option.some.injEq] at h
      subst h
      obtain ⟨hocc, hlast⟩ := lastIndex?_sound hpat hl
      refine ⟨hocc, fun j hj => ?_⟩
      obtain ⟨j, rfl⟩ : ∃ j', j = j' + 1 := ⟨j - 1, by omega⟩
      exact hlast j (by omega)
    | none =>
      by_cases hp : pat <+: a :: l
      · simp only [lastIndex?, hl, if_pos hp, Option.some.injEq] at h
        subst h
        refine ⟨hp, fun j hj => ?_⟩
        obtain ⟨j, rfl⟩ : ∃ j', j = j' + 1 := ⟨j - 1, by omega⟩
        exact lastIndex?_eq_none hpat hl j
      · simp [lastIndex?, hl, hp] at h

theorem lastIndex?_eq_some_iff (hpat : pat ≠ []) {l : List α} {i : Nat} :
    lastIndex? pat l = some i ↔ pat <+: l.drop i ∧ ∀ j, i < j → ¬ pat <+: l.drop j := by
  refine ⟨lastIndex?_sound hpat, fun ⟨hocc, hlast⟩ => ?_⟩
  cases h : lastIndex? pat l with
  | none => exact absurd hocc (lastIndex?_eq_none hpat h i)
  | some i' =>
    obtain ⟨hocc', hlast'⟩ := lastIndex?_sound hpat h
    rcases Nat.lt_trichotomy i i' with hlt | heq | hgt
    · exact absurd hocc' (hlast i' hlt)
    · rw [heq]
    · exact absurd hocc (hlast' i hgt)

end Spec

section Occurrences

variable {pat : List α}

omit [DecidableEq α] in
theorem not_prefix_drop_of_no_occurrence {l : List α} (h : ¬ pat <:+: l) (j : Nat) :
    ¬ pat <+: l.drop j := fun hocc => h (hocc.isInfix.trans (drop_suffix j l).isInfix)

omit [DecidableEq α] in
theorem firstAt_append {l r : List α} (h : ¬ pat <:+: l ++ pat.dropLast) :
    FirstAt pat (l ++ pat ++ r) l.length := by
  have hpat : pat ≠ [] := by
    rintro rfl
    exact h nil_infix
  refine ⟨by simp, fun j hj hocc => h ?_⟩
  -- an occurrence that starts inside `l` ends inside `l ++ pat.dropLast`
  have hdrop : (l ++ pat ++ r).drop j = (l.drop j ++ pat.dropLast) ++ (pat.getLast hpat :: r) := by
    conv_lhs => rw [← dropLast_append_getLast hpat]
    rw [append_assoc, drop_append_of_le_length hj.le]
    simp
  have hlen : pat.length ≤ (l.drop j ++ pat.dropLast).length := by
    simp only [length_append, length_drop, length_dropLast]
    omega
  have hpre : pat <+: l.drop j ++ pat.dropLast := by
    rw [hdrop, prefix_iff_eq_take, take_append_of_le_length hlen] at hocc
    rw [prefix_iff_eq_take]
    exact hocc
  have hsuf : l.drop j ++ pat.dropLast <:+ l ++ pat.dropLast := by
    rw [← drop_append_of_le_length hj.le]
    exact drop_suffix _ _
  exact hpre.isInfix.trans hsuf.isInfix

theorem index?_append {l r : List α} (h : ¬ pat <:+: l ++ pat.dropLast) :
    index? pat (l ++ pat ++ r) = some l.length :=
  index?_eq_some_iff.mpr (firstAt_append h)

theorem index?_eq_none_of_no_occurrence {l : List α} (h : ¬ pat <:+: l) : index? pat l = none :=
  index?_eq_none_iff.mpr (not_prefix_drop_of_no_occurrence h)

theorem lastIndex?_append (hpat : pat ≠ []) {l r : List α} (h : ¬ pat <:+: pat.tail ++ r) :
    lastIndex? pat (l ++ pat ++ r) = some l.length := by
  refine (lastIndex?_eq_some_iff hpat).mpr ⟨by simp, fun j hj hocc => ?_⟩
  -- an occurrence that starts past `l` lies in the pattern's tail and what follows it
  obtain ⟨a, tl, rfl⟩ := exists_cons_of_ne_nil hpat
  obtain ⟨d, rfl⟩ : ∃ d, j = l.length + 1 + d := ⟨j - l.length - 1, by omega⟩
  have hdrop : (l ++ a :: tl ++ r).drop (l.length + 1 + d) = (tl ++ r).drop d := by
    rw [append_assoc, drop_append, drop_eq_nil_of_le (by omega), nil_append,
      show l.length + 1 + d - l.length = d + 1 by omega]
    simp
  rw [hdrop] at hocc
  exact not_prefix_drop_of_no_occurrence h d hocc

end Occurrences

section Window

/-! A reader that peeks `s` elements of `l` and searches them from `last` on sees the window
`(l.take s).drop last`. -/

variable {pat : List α}

omit [DecidableEq α] in
theorem prefix_window (hpat : pat ≠ []) {l : List α} {s last j : Nat} :
    pat <+: ((l.take s).drop last).drop j ↔ pat <+: l.drop (last + j) ∧ last + j + pat.length ≤ s := by
  have hlen : 0 < pat.length := length_pos_iff.mpr hpat
  rw [drop_drop, drop_take, prefix_take_iff]
  constructor
  · rintro ⟨hocc, hle⟩
    exact ⟨hocc, by omega⟩
  · rintro ⟨hocc, hle⟩
    exact ⟨hocc, by omega⟩

theorem index?_window_of_firstAt (hpat : pat ≠ []) {l : List α} {p s last : Nat}
    (hfirst : FirstAt pat l p) (hlast : last ≤ p) (hs : p + pat.length ≤ s) :
    index? pat ((l.take s).drop last) = some (p - last) := by
  refine index?_eq_some_iff.mpr ⟨?_, fun j hj hocc => ?_⟩
  · rw [prefix_window hpat, Nat.add_sub_cancel' hlast]
    exact ⟨hfirst.1, hs⟩
  · rw [prefix_window hpat] at hocc
    exact hfirst.2 (last + j) (by omega) hocc.1

theorem index?_window_eq_none_of_firstAt (hpat : pat ≠ []) {l : List α} {p s last : Nat}
    (hfirst : FirstAt pat l p) (hs : s < p + pat.length) :
    index? pat ((l.take s).drop last) = none := by
  refine index?_eq_none_iff.mpr fun j hocc => ?_
  rw [prefix_window hpat] at hocc
  exact hfirst.2 (last + j) (by omega) hocc.1

theorem index?_window_eq_none_of_no_occurrence (hpat : pat ≠ []) {l : List α} {s last : Nat}
    (h : ¬ pat <:+: l) : index? pat ((l.take s).drop last) = none := by
  refine index?_eq_none_iff.mpr fun j hocc => ?_
  rw [prefix_window hpat] at hocc
  exact not_prefix_drop_of_no_occurrence h _ hocc.1

end Window

end Search
