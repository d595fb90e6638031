import Mathlib.Data.List.Perm.Basic
import Mathlib.Order.Basic
import Mathlib.Order.Lattice

/-! Three-way comparisons that answer `-1`, `0` or `1`: the comparison of a linear order
written as `if x < y … else if x > y …`, and the selection of a greatest element as a left
fold that replaces the candidate by each element the candidate compares below. When the
comparison orders the candidates strictly and totally, the fold returns their greatest
element, which does not depend on the order the candidates come in. -/

namespace ThreeWay

section Order

variable {β : Type} [LinearOrder β]

/-- `-1` below, `1` above, and `none` on equal values, for the caller to go on. -/
def threeWay (x y : β) : Option Int :=
  if x < y then some (-1) else if x > y then some 1 else none

theorem threeWay_of_lt {x y : β} (h : x < y) : threeWay x y = some (-1) := by
  simp [threeWay, h]

theorem threeWay_of_gt {x y : β} (h : y < x) : threeWay x y = some 1 := by
  simp [threeWay, h, not_lt_of_gt h]

@[simp] theorem threeWay_self (x : β) : threeWay x x = none := by
  simp [threeWay]

theorem threeWay_swap (x y : β) : threeWay y x = (threeWay x y).map (- ·) := by
  rcases lt_trichotomy x y with h | rfl | h
  · rw [threeWay_of_lt h, threeWay_of_gt h]
    rfl
  · simp
  · rw [threeWay_of_gt h, threeWay_of_lt h]
    rfl

theorem threeWay_eq_none {x y : β} : threeWay x y = none ↔ x = y := by
  constructor
  · intro h
    rcases lt_trichotomy x y with hlt | heq | hgt
    · simp [threeWay_of_lt hlt] at h
    · exact heq
    · simp [threeWay_of_gt hgt] at h
  · rintro rfl
    exact threeWay_self x

theorem threeWay_eq_one {x y : β} : threeWay x y = some 1 ↔ y < x := by
  constructor
  · intro h
    rcases lt_trichotomy x y with hlt | rfl | hgt
    · simp [threeWay_of_lt hlt] at h
    · simp at h
    · exact hgt
  · exact threeWay_of_gt

theorem threeWay_ne_zero (x y : β) : threeWay x y ≠ some 0 := by
  rcases lt_trichotomy x y with h | rfl | h
  · simp [threeWay_of_lt h]
  · simp
  · simp [threeWay_of_gt h]

theorem threeWay_trans {x y z : β} (hxy : threeWay x y = some 1) (hyz : threeWay y z = some 1) :
    threeWay x z = some 1 :=
  threeWay_eq_one.mpr (lt_trans (threeWay_eq_one.mp hyz) (threeWay_eq_one.mp hxy))

theorem threeWay_cases (x y : β) :
    threeWay x y = none ∨ threeWay x y = some (-1) ∨ threeWay x y = some 1 := by
  rcases lt_trichotomy x y with h | rfl | h
  · exact .inr (.inl (threeWay_of_lt h))
  · exact .inl (threeWay_self x)
  · exact .inr (.inr (threeWay_of_gt h))

end Order

variable {α ε : Type}

/-- The fold: the first element is the first candidate. -/
def selectMax (cmp : α → α → Int) (first : α) (rest : List α) : α :=
  rest.foldl (fun cur c => if cmp cur c < 0 then c else cur) first

/-- The same fold with a comparison that can fail, stopping at the first failure. -/
def selectMaxM (cmp : α → α → Except ε Int) (first : α) (rest : List α) : Except ε α :=
  rest.foldlM (fun cur c => do
    let r ← cmp cur c
    pure (if r < 0 then c else cur)) first

@[simp] theorem selectMax_nil (cmp : α → α → Int) (first : α) : selectMax cmp first [] = first :=
  rfl

theorem selectMax_cons (cmp : α → α → Int) (first c : α) (rest : List α) :
    selectMax cmp first (c :: rest) =
      selectMax cmp (if cmp first c < 0 then c else first) rest :=
  rfl

theorem selectMax_mem (cmp : α → α → Int) (first : α) (rest : List α) :
    selectMax cmp first rest ∈ first :: rest := by
  induction rest generalizing first with
  | nil => exact List.mem_cons_self
  | cons c rest ih =>
    rw [selectMax_cons]
    split
    · exact List.mem_cons_of_mem _ (ih c)
    · rcases List.mem_cons.mp (ih first) with h | h
      · rw [h]
        exact List.mem_cons_self
      · exact List.mem_cons_of_mem _ (List.mem_cons_of_mem _ h)

/-- A three-way comparison that orders the elements of `S` strictly and totally: it answers
`-1`, `0` or `1`, answers `0` exactly on equal elements, changes sign when its arguments
are swapped, and its `1` is transitive. -/
structure StrictTotalOn (cmp : α → α → Int) (S : Set α) : Prop where
  trichotomy : ∀ a ∈ S, ∀ b ∈ S, cmp a b = -1 ∨ cmp a b = 0 ∨ cmp a b = 1
  eq_zero : ∀ a ∈ S, ∀ b ∈ S, cmp a b = 0 ↔ a = b
  swap : ∀ a ∈ S, ∀ b ∈ S, cmp b a = -cmp a b
  trans : ∀ a ∈ S, ∀ b ∈ S, ∀ c ∈ S, cmp a b = 1 → cmp b c = 1 → cmp a c = 1

section Select

variable {cmp : α → α → Int} {S : Set α} (hS : StrictTotalOn cmp S)
include hS

theorem StrictTotalOn.gt_of_ge_of_gt {a b c : α} (ha : a ∈ S) (hb : b ∈ S) (hc : c ∈ S)
    (hab : cmp a b ≠ -1) (hbc : cmp b c = 1) : cmp a c = 1 := by
  rcases hS.trichotomy a ha b hb with h | h | h
  · exact absurd h hab
  · rwa [(hS.eq_zero a ha b hb).mp h]
  · exact hS.trans a ha b hb c hc h hbc

theorem StrictTotalOn.gt_of_gt_of_ge {a b c : α} (ha : a ∈ S) (hb : b ∈ S) (hc : c ∈ S)
    (hab : cmp a b = 1) (hbc : cmp b c ≠ -1) : cmp a c = 1 := by
  rcases hS.trichotomy b hb c hc with h | h | h
  · exact absurd h hbc
  · rwa [← (hS.eq_zero b hb c hc).mp h]
  · exact hS.trans a ha b hb c hc hab h

theorem selectMax_greatest {first : α} {rest : List α} (hmem : ∀ x ∈ first :: rest, x ∈ S) :
    ∀ x ∈ first :: rest, cmp x (selectMax cmp first rest) ≠ 1 := by
  induction rest generalizing first with
  | nil =>
    intro x hx
    rw [List.mem_singleton.mp hx, selectMax_nil, (hS.eq_zero first (hmem _ List.mem_cons_self)
      first (hmem _ List.mem_cons_self)).mpr rfl]
    decide
  | cons c rest ih =>
    have hf : first ∈ S := hmem first List.mem_cons_self
    have hc : c ∈ S := hmem c (List.mem_cons_of_mem _ List.mem_cons_self)
    have hrest : ∀ x ∈ rest, x ∈ S := fun x hx =>
      hmem x (List.mem_cons_of_mem _ (List.mem_cons_of_mem _ hx))
    have hm : selectMax cmp first (c :: rest) ∈ S := hmem _ (selectMax_mem cmp first (c :: rest))
    intro x hx
    rw [selectMax_cons] at hm ⊢
    by_cases hlt : cmp first c < 0
    · -- `c` replaces `first`, which is below `c` and so below everything `c` is below
      rw [if_pos hlt] at hm ⊢
      have ih' := @ih c (by simpa [hc] using hrest)
      rcases List.mem_cons.mp hx with rfl | hx
      · intro hgt
        have hcm : cmp c (selectMax cmp c rest) ≠ 1 := ih' c List.mem_cons_self
        have hmc : cmp (selectMax cmp c rest) c ≠ -1 := by
          rw [hS.swap _ hc _ hm]
          omega
        have := hS.gt_of_gt_of_ge hf hm hc hgt hmc
        omega
      · exact ih' x hx
    · -- `first` stays, and `c` is not above it
      rw [if_neg hlt] at hm ⊢
      have ih' := @ih first (by simpa [hf] using hrest)
      rcases List.mem_cons.mp hx with rfl | hx
      · exact ih' x List.mem_cons_self
      rcases List.mem_cons.mp hx with rfl | hx
      · intro hgt
        have hfc : cmp first x ≠ -1 := by omega
        exact ih' first List.mem_cons_self (hS.gt_of_ge_of_gt hf hc hm hfc hgt)
      · exact ih' x (List.mem_cons_of_mem _ hx)

theorem selectMax_perm {first first' : α} {rest rest' : List α}
    (hp : (first :: rest).Perm (first' :: rest')) (hmem : ∀ x ∈ first :: rest, x ∈ S) :
    selectMax cmp first rest = selectMax cmp first' rest' := by
  have hmem' : ∀ x ∈ first' :: rest', x ∈ S := fun x hx => hmem x (hp.mem_iff.mpr hx)
  set m := selectMax cmp first rest
  set m' := selectMax cmp first' rest'
  have hm : m ∈ first :: rest := selectMax_mem cmp first rest
  have hm' : m' ∈ first' :: rest' := selectMax_mem cmp first' rest'
  have h1 : cmp m m' ≠ 1 := selectMax_greatest hS hmem' m (hp.mem_iff.mp hm)
  have h2 : cmp m' m ≠ 1 := selectMax_greatest hS hmem m' (hp.mem_iff.mpr hm')
  have hS1 : m ∈ S := hmem m hm
  have hS2 : m' ∈ S := hmem' m' hm'
  rcases hS.trichotomy m hS1 m' hS2 with h | h | h
  · rw [hS.swap m hS1 m' hS2, h] at h2
    exact absurd rfl h2
  · exact (hS.eq_zero m hS1 m' hS2).mp h
  · exact absurd h h1

end Select

theorem selectMaxM_eq_ok {cmpM : α → α → Except ε Int} {cmp : α → α → Int} {T : Set α}
    (h : ∀ a ∈ T, ∀ b ∈ T, cmpM a b = .ok (cmp a b)) {first : α} {rest : List α}
    (hf : first ∈ T) (hr : ∀ x ∈ rest, x ∈ T) :
    selectMaxM cmpM first rest = .ok (selectMax cmp first rest) := by
  induction rest generalizing first with
  | nil => rfl
  | cons c rest ih =>
    have hc : c ∈ T := hr c List.mem_cons_self
    have hr' : ∀ x ∈ rest, x ∈ T := fun x hx => hr x (List.mem_cons_of_mem _ hx)
    have hstep : (do let r ← cmpM first c; pure (if r < 0 then c else first) : Except ε α) =
        .ok (if cmp first c < 0 then c else first) := by
      rw [h first hf c hc]
      rfl
    simp only [selectMaxM, List.foldlM_cons] at ih ⊢
    rw [hstep, selectMax_cons]
    refine ih ?_ hr'
    split
    · exact hc
    · exact hf

end ThreeWay
