import Mathlib.Order.FixedPoints
import Mathlib.Logic.Relation
import Mathlib.Data.Set.Finite.Basic

/-! Least closed predicates and cycles. A predicate given as the least fixed point of a rule
that, wherever it holds, needs it again at every successor, holds only where no successor chain
is infinite; in particular it never holds on a cycle. A search that cuts a cycle by answering
"no" for a node still in progress is right to do so. Over finitely many nodes the converse holds
too: an element is accessible exactly when no cycle reaches it. -/

namespace Closure

open Relation

variable {α : Type} {r : α → α → Prop}

/-- The least fixed point of a rule that needs the predicate at every `r`-predecessor is
contained in the accessible part of `r`. -/
theorem lfp_le_acc (F : (α → Prop) →o (α → Prop))
    (hF : ∀ (P : α → Prop) a, F P a → ∀ b, r b a → P b) : OrderHom.lfp F ≤ Acc r := by
  apply OrderHom.lfp_le
  intro a ha
  exact Acc.intro a (hF _ a ha)

theorem Acc.not_self {a : α} (h : Acc r a) : ¬ r a a := by
  induction h with
  | intro x _ ih => exact fun hxx => ih x hxx hxx

theorem Acc.not_transGen_self {a : α} (h : Acc r a) : ¬ TransGen r a a :=
  Acc.not_self h.transGen

theorem Acc.of_reflTransGen {a b : α} (h : Acc r b) (hab : ReflTransGen r a b) : Acc r a := by
  induction hab using ReflTransGen.head_induction_on with
  | refl => exact h
  | head hac _ ih => exact ih.inv hac

theorem not_acc_of_cycle {c a : α} (hc : TransGen r c c) (hca : ReflTransGen r c a) : ¬ Acc r a :=
  fun h => Acc.not_transGen_self (Acc.of_reflTransGen h hca) hc

/-- Where every element with a successor lies in a finite set, an element no cycle reaches is
accessible: the elements reaching it, ordered by `TransGen r`, are finitely many and without a
cycle, so well founded. -/
theorem acc_of_no_cycle {s : Set α} (hs : s.Finite) (hr : ∀ a b, r a b → a ∈ s) {x : α}
    (h : ∀ c, ReflTransGen r c x → ¬ TransGen r c c) : Acc r x := by
  let A : Set α := {c | c ∈ s ∧ ReflTransGen r c x}
  have : Finite A := (hs.subset fun _ hc => hc.1).to_subtype
  let q : A → A → Prop := fun a b => TransGen r a b
  have : IsTrans A q := ⟨fun _ _ _ hab hbc => hab.trans hbc⟩
  have : Std.Irrefl q := ⟨fun a haa => h a a.2.2 haa⟩
  have hA : ∀ c : A, Acc r c := by
    intro c
    induction (Finite.wellFounded_of_trans_of_irrefl q).apply c with
    | intro c _ ih =>
      refine Acc.intro _ fun b hb => ?_
      exact ih ⟨b, hr b c hb, ReflTransGen.head hb c.2.2⟩ (TransGen.single hb)
  exact Acc.intro x fun b hb => hA ⟨b, hr b x hb, ReflTransGen.single hb⟩

theorem lfp_congr {F G : (α → Prop) →o (α → Prop)} (h : ∀ P a, F P a ↔ G P a) :
    OrderHom.lfp F = OrderHom.lfp G := by
  congr 1
  ext P a
  exact h P a

end Closure
