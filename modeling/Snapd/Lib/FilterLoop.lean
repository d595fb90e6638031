import Mathlib.Data.List.Perm.Basic

/-! A loop over a list that keeps some results, in order, and stops at the first failure.
When every failure is the same error, which elements come first does not matter: a permuted
list fails alike, or keeps a permutation of the same results. -/

namespace FilterLoop

variable {α β ε : Type} (f : α → Except ε (Option β))

/-- One round: a failure stops the loop, a `some` result is kept. -/
def step (acc : List β) (a : α) : Except ε (List β) :=
  match f a with
  | .error e => .error e
  | .ok none => .ok acc
  | .ok (some b) => .ok (acc ++ [b])

/-- Keep the `some` results in order; stop at the first failure. -/
def filterLoop (l : List α) : Except ε (List β) := l.foldlM (step f) []

/-- The results kept, as `filterMap`. -/
def kept (a : α) : Option β :=
  match f a with
  | .ok o => o
  | .error _ => none

theorem foldlM_eq_ok {acc : List β} {l : List α} (h : ∀ a ∈ l, ∃ o, f a = .ok o) :
    l.foldlM (step f) acc = .ok (acc ++ l.filterMap (kept f)) := by
  induction l generalizing acc with
  | nil =>
    simp only [List.foldlM_nil, List.filterMap_nil, List.append_nil]
    rfl
  | cons a l ih =>
    obtain ⟨o, ho⟩ := h a List.mem_cons_self
    have hrest : ∀ x ∈ l, ∃ o, f x = .ok o := fun x hx => h x (List.mem_cons_of_mem _ hx)
    rw [List.foldlM_cons, List.filterMap_cons]
    cases o with
    | none =>
      have hstep : step f acc a = .ok acc := by simp [step, ho]
      have hk : kept f a = none := by simp [kept, ho]
      rw [hstep, hk]
      exact ih hrest
    | some b =>
      have hstep : step f acc a = .ok (acc ++ [b]) := by simp [step, ho]
      have hk : kept f a = some b := by simp [kept, ho]
      rw [hstep, hk]
      refine (ih hrest).trans ?_
      simp

theorem filterLoop_eq_ok {l : List α} (h : ∀ a ∈ l, ∃ o, f a = .ok o) :
    filterLoop f l = .ok (l.filterMap (kept f)) :=
  (foldlM_eq_ok f h).trans (by simp)

theorem foldlM_eq_error {e₀ : ε} (he : ∀ a e, f a = .error e → e = e₀) {acc : List β}
    {l : List α} (h : ∃ a ∈ l, ∃ e, f a = .error e) :
    l.foldlM (step f) acc = .error e₀ := by
  induction l generalizing acc with
  | nil => simp at h
  | cons a l ih =>
    rw [List.foldlM_cons]
    cases hfa : f a with
    | error e =>
      simp only [step, hfa, he a e hfa]
      rfl
    | ok o =>
      obtain ⟨x, hx, e, hxe⟩ := h
      have hxl : x ∈ l := by
        rcases List.mem_cons.mp hx with rfl | hx
        · rw [hfa] at hxe
          cases hxe
        · exact hx
      cases o with
      | none =>
        simp only [step, hfa]
        exact ih ⟨x, hxl, e, hxe⟩
      | some b =>
        simp only [step, hfa]
        exact ih ⟨x, hxl, e, hxe⟩

theorem filterLoop_eq_error {e₀ : ε} (he : ∀ a e, f a = .error e → e = e₀) {l : List α}
    (h : ∃ a ∈ l, ∃ e, f a = .error e) : filterLoop f l = .error e₀ :=
  foldlM_eq_error f he h

theorem mem_of_foldlM_eq_ok {acc r : List β} {l : List α} {b : β}
    (h : l.foldlM (step f) acc = .ok r) (hb : b ∈ r) :
    b ∈ acc ∨ ∃ a ∈ l, f a = .ok (some b) := by
  induction l generalizing acc with
  | nil =>
    simp only [List.foldlM_nil] at h
    cases h
    exact Or.inl hb
  | cons a l ih =>
    rw [List.foldlM_cons] at h
    cases hfa : f a with
    | error e =>
      simp only [step, hfa] at h
      cases h
    | ok o =>
      cases o with
      | none =>
        simp only [step, hfa] at h
        rcases ih h with hacc | ⟨x, hx, hxb⟩
        · exact Or.inl hacc
        · exact Or.inr ⟨x, List.mem_cons_of_mem _ hx, hxb⟩
      | some c =>
        simp only [step, hfa] at h
        rcases ih h with hacc | ⟨x, hx, hxb⟩
        · -- `b` was kept before, or is this element's result
          rcases List.mem_append.mp hacc with hacc | hc
          · exact Or.inl hacc
          · rw [List.mem_singleton.mp hc]
            exact Or.inr ⟨a, List.mem_cons_self, hfa⟩
        · exact Or.inr ⟨x, List.mem_cons_of_mem _ hx, hxb⟩

theorem mem_of_filterLoop_eq_ok {r : List β} {l : List α} {b : β} (h : filterLoop f l = .ok r)
    (hb : b ∈ r) : ∃ a ∈ l, f a = .ok (some b) :=
  (mem_of_foldlM_eq_ok f h hb).resolve_left List.not_mem_nil

theorem filterLoop_perm {e₀ : ε} (he : ∀ a e, f a = .error e → e = e₀) {l l' : List α}
    (hp : l.Perm l') :
    (filterLoop f l = .error e₀ ∧ filterLoop f l' = .error e₀) ∨
      ∃ r r', filterLoop f l = .ok r ∧ filterLoop f l' = .ok r' ∧ r.Perm r' := by
  by_cases hfail : ∃ a ∈ l, ∃ e, f a = .error e
  · left
    obtain ⟨a, ha, e, hae⟩ := hfail
    exact ⟨filterLoop_eq_error f he ⟨a, ha, e, hae⟩,
      filterLoop_eq_error f he ⟨a, hp.mem_iff.mp ha, e, hae⟩⟩
  · right
    have hok : ∀ a ∈ l, ∃ o, f a = .ok o := by
      intro a ha
      cases hfa : f a with
      | error e => exact absurd ⟨a, ha, e, hfa⟩ hfail
      | ok o => exact ⟨o, rfl⟩
    have hok' : ∀ a ∈ l', ∃ o, f a = .ok o := fun a ha => hok a (hp.mem_iff.mpr ha)
    exact ⟨_, _, filterLoop_eq_ok f hok, filterLoop_eq_ok f hok', hp.filterMap _⟩

end FilterLoop
