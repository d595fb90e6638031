import Mathlib.Data.List.Basic

/-! Runs of a total step with an output, and the forward simulation of one such step by
another: a relation between their states such that from related states each input gives the
same output and related states. Along any run of inputs the two then stay related and give the
same outputs, so what is proved of the simpler machine holds of the other. -/

namespace Refinement

section Exec

variable {σ α β : Type} (step : σ → α → σ × β)

/-- The state after a run of inputs. -/
def exec : σ → List α → σ
  | s, [] => s
  | s, a :: as => exec (step s a).1 as

@[simp]
theorem exec_nil (s : σ) : exec step s [] = s := rfl

@[simp]
theorem exec_cons (s : σ) (a : α) (as : List α) : exec step s (a :: as) = exec step (step s a).1 as :=
  rfl

@[simp]
theorem exec_append (xs ys : List α) (s : σ) :
    exec step s (xs ++ ys) = exec step (exec step s xs) ys := by
  induction xs generalizing s with
  | nil => rfl
  | cons a xs ih => exact ih (step s a).1

theorem exec_concat (xs : List α) (a : α) (s : σ) :
    exec step s (xs ++ [a]) = (step (exec step s xs) a).1 := by
  simp

end Exec

section Simulation

variable {σ τ α β : Type} (step : σ → α → σ × β) (astep : τ → α → τ × β)

/-- `R` relates each state of `step` to a state of `astep` that makes the same moves. -/
def Simulates (R : σ → τ → Prop) : Prop :=
  ∀ s t a, R s t → R (step s a).1 (astep t a).1 ∧ (step s a).2 = (astep t a).2

variable {step astep} {R : σ → τ → Prop}

theorem Simulates.exec_related (h : Simulates step astep R) :
    ∀ (xs : List α) (s : σ) (t : τ), R s t → R (exec step s xs) (exec astep t xs) := by
  intro xs
  induction xs with
  | nil => exact fun _ _ hR => hR
  | cons a xs ih =>
    intro s t hR
    exact ih _ _ (h s t a hR).1

theorem Simulates.output_eq (h : Simulates step astep R) {s : σ} {t : τ} (hR : R s t)
    (xs : List α) (a : α) : (step (exec step s xs) a).2 = (astep (exec astep t xs) a).2 :=
  (h _ _ a (h.exec_related xs s t hR)).2

end Simulation

/-! ## Related partial results

Two partial computations are related by `Option.Rel R` when both fail or both give results
related by `R`. The rules below carry such a relation through the binds of two programs in
the `Option` monad, step by step, as a simulation carries it through their runs. -/

section OptionRel

variable {α β γ δ : Type} {R : α → β → Prop} {S : γ → δ → Prop}

theorem rel_bind {a : Option α} {b : Option β} {f : α → Option γ} {g : β → Option δ}
    (h : Option.Rel R a b) (hfg : ∀ x y, R x y → Option.Rel S (f x) (g y)) :
    Option.Rel S (a.bind f) (b.bind g) := by
  cases h with
  | some hxy => exact hfg _ _ hxy
  | none => exact Option.Rel.none

theorem eq_of_rel_eq {a b : Option α} (h : Option.Rel Eq a b) : a = b := by
  cases h with
  | some hxy => rw [hxy]
  | none => rfl

end OptionRel

end Refinement
