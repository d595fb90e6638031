import Mathlib.Data.List.Basic

/-! Runs of a step that can fail: the inputs are applied in turn, and one that fails leaves the
state as it was. What every accepted step keeps holds after the whole run; and a property of
each accepted input, given the inputs accepted before it, is added one input at a time. A
sequence of checks passes only if each of them does. -/

namespace Run

section Runs

variable {σ α ε : Type} (step : σ → α → Except ε σ)

/-- Apply one input; an accepted one joins the history. -/
def apply (acc : σ × List α) (a : α) : σ × List α :=
  match step acc.1 a with
  | .ok s => (s, acc.2 ++ [a])
  | .error _ => acc

/-- The state after the inputs, and the inputs accepted, in order. -/
def run (s : σ) (inputs : List α) : σ × List α := inputs.foldl (apply step) (s, [])

theorem foldl_apply_invariant (P : σ → List α → Prop)
    (hstep : ∀ s H a s', P s H → step s a = .ok s' → P s' (H ++ [a])) :
    ∀ (inputs : List α) (acc : σ × List α), P acc.1 acc.2 →
      P (inputs.foldl (apply step) acc).1 (inputs.foldl (apply step) acc).2 := by
  intro inputs
  induction inputs with
  | nil => exact fun _ h => h
  | cons a rest ih =>
    intro acc hacc
    apply ih
    -- an accepted input extends the history, a failed one changes nothing
    unfold apply
    split
    · next s hs => exact hstep _ _ _ _ hacc hs
    · exact hacc

/-- The induction rule of runs: an invariant of the state and of the history that holds at the
start and that every accepted step keeps. -/
theorem run_invariant (P : σ → List α → Prop) {s : σ} (h0 : P s [])
    (hstep : ∀ s H a s', P s H → step s a = .ok s' → P s' (H ++ [a])) (inputs : List α) :
    P (run step s inputs).1 (run step s inputs).2 :=
  foldl_apply_invariant step P hstep inputs (s, []) h0

end Runs

section History

variable {α : Type} (Q : List α → α → Prop)

/-- Every input of the history satisfies `Q` given the inputs before it. -/
def Each (H : List α) : Prop := ∀ pre a post, H = pre ++ a :: post → Q pre a

theorem each_nil : Each Q [] := fun pre a post h => by simp at h

theorem each_append_singleton {H : List α} {a : α} : Each Q (H ++ [a]) ↔ Each Q H ∧ Q H a := by
  constructor
  · intro h
    refine ⟨fun pre b post hH => h pre b (post ++ [a]) (by simp [hH]), h H a [] rfl⟩
  · rintro ⟨hH, ha⟩ pre b post hsplit
    rcases List.eq_nil_or_concat post with rfl | ⟨post', c, rfl⟩
    · obtain ⟨rfl, hb⟩ := List.append_inj' hsplit rfl
      cases hb
      exact ha
    · have hsplit' : H ++ [a] = (pre ++ b :: post') ++ [c] := by simpa using hsplit
      obtain ⟨hpre, -⟩ := List.append_inj' hsplit' rfl
      exact hH pre b post' hpre

end History

section Checks

variable {α β ε : Type}

theorem bind_eq_ok {x : Except ε α} {f : α → Except ε β} {b : β} :
    x >>= f = .ok b ↔ ∃ a, x = .ok a ∧ f a = .ok b := by
  cases x <;> simp [bind, Except.bind]

theorem mapError_eq_ok {ε' : Type} {x : Except ε α} {f : ε → ε'} {a : α} :
    x.mapError f = .ok a ↔ x = .ok a := by
  cases x <;> simp [Except.mapError]

theorem mapM_eq_ok {f : α → Except ε β} {g : α → β} :
    ∀ {l : List α}, (∀ a ∈ l, f a = .ok (g a)) → l.mapM f = .ok (l.map g)
  | [], _ => rfl
  | a :: l, h => by
    have hrest := mapM_eq_ok fun x hx => h x (List.mem_cons_of_mem _ hx)
    rw [List.mapM_cons, h a List.mem_cons_self, hrest]
    rfl

theorem forall₂_of_mapM_eq_ok {f : α → Except ε β} :
    ∀ {l : List α} {l' : List β}, l.mapM f = .ok l' → List.Forall₂ (fun a b => f a = .ok b) l l'
  | [], l', h => by
    have : l' = [] := by simpa [pure, Except.pure] using h.symm
    subst this
    exact .nil
  | a :: l, l', h => by
    rw [List.mapM_cons] at h
    obtain ⟨b, hb, h⟩ := bind_eq_ok.mp h
    obtain ⟨bs, hbs, h⟩ := bind_eq_ok.mp h
    have : l' = b :: bs := by simpa [pure, Except.pure] using h.symm
    subst this
    exact .cons hb (forall₂_of_mapM_eq_ok hbs)

theorem exists_of_mapM_eq_ok {f : α → Except ε β} {l : List α} {l' : List β}
    (h : l.mapM f = .ok l') {b : β} (hb : b ∈ l') : ∃ a ∈ l, f a = .ok b := by
  have hrel := forall₂_of_mapM_eq_ok h
  clear h
  induction hrel with
  | nil => simp at hb
  | @cons a b' as bs hab _ ih =>
    rcases List.mem_cons.mp hb with rfl | hb
    · exact ⟨a, List.mem_cons_self, hab⟩
    · obtain ⟨a', ha', hfa'⟩ := ih hb
      exact ⟨a', List.mem_cons_of_mem _ ha', hfa'⟩

theorem mapM_map_eq_ok {f : β → Except ε α} {g : α → β} :
    ∀ {l : List α}, (∀ a ∈ l, f (g a) = .ok a) → (l.map g).mapM f = .ok l
  | [], _ => rfl
  | a :: l, h => by
    have hrest := mapM_map_eq_ok fun x hx => h x (List.mem_cons_of_mem _ hx)
    rw [List.map_cons, List.mapM_cons, h a List.mem_cons_self, hrest]
    rfl

theorem forM_eq_ok {l : List α} {f : α → Except ε Unit} (h : l.forM f = .ok ()) :
    ∀ a ∈ l, f a = .ok () := by
  induction l with
  | nil => simp
  | cons b l ih =>
    simp only [List.forM_eq_forM, List.forM_cons] at h
    obtain ⟨u, hb, hrest⟩ := bind_eq_ok.mp h
    intro a ha
    rcases List.mem_cons.mp ha with rfl | ha
    · exact hb
    · exact ih hrest a ha

end Checks

section Folds

variable {σ α : Type}

/-- The induction rule of a fold: an invariant of the state and of the inputs folded so far
that every step on a member of the list keeps holds of the result. -/
theorem foldl_invariant (f : σ → α → σ) (P : σ → List α → Prop) (l : List α)
    (hstep : ∀ s H a, a ∈ l → P s H → P (f s a) (H ++ [a])) :
    ∀ (s : σ) (H : List α), P s H → P (l.foldl f s) (H ++ l) := by
  induction l with
  | nil => simp
  | cons a l ih =>
    intro s H hs
    simpa using ih (fun s H b hb => hstep s H b (List.mem_cons_of_mem a hb)) (f s a) (H ++ [a])
      (hstep s H a List.mem_cons_self hs)

/-- The induction rule of a fold whose steps can fail: an invariant of the state and of the
inputs folded so far that every successful step on a member of the list keeps holds of the
result. -/
theorem foldlM_option_invariant (f : σ → α → Option σ) (P : σ → List α → Prop) (l : List α)
    (hstep : ∀ s H a s', a ∈ l → P s H → f s a = some s' → P s' (H ++ [a])) :
    ∀ (s r : σ) (H : List α), P s H → l.foldlM f s = some r → P r (H ++ l) := by
  induction l with
  | nil =>
    intro s r H hs h
    simp only [List.foldlM_nil] at h
    cases h
    simpa using hs
  | cons a l ih =>
    intro s r H hs h
    rw [List.foldlM_cons] at h
    cases hs' : f s a with
    | none => simp [hs'] at h
    | some s' =>
      simp only [hs', Option.bind_eq_bind, Option.bind_some] at h
      simpa using ih (fun s H b s' hb => hstep s H b s' (List.mem_cons_of_mem a hb)) s' r
        (H ++ [a]) (hstep s H a s' List.mem_cons_self hs hs') h

end Folds

end Run
