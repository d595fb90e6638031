import Mathlib.Computability.Language

/-! Regular expressions whose atoms are character classes, given by a Boolean predicate, so
that classes such as `[^/]` or `.` stay one node over a large alphabet. The meaning is a
`Language`; Brzozowski derivatives give a matcher that decides membership. -/

inductive Regex (σ : Type) where
  | empty
  | eps
  | cls (p : σ → Bool)
  | seq (r s : Regex σ)
  | alt (r s : Regex σ)
  | star (r : Regex σ)

namespace Regex

variable {σ : Type}

/-- The words a regex matches. -/
def lang : Regex σ → Language σ
  | empty => 0
  | eps => 1
  | cls p => {w | ∃ a, p a = true ∧ w = [a]}
  | seq r s => r.lang * s.lang
  | alt r s => r.lang + s.lang
  | star r => KStar.kstar r.lang

theorem not_mem_empty (w : List σ) : w ∉ (empty : Regex σ).lang := Language.notMem_zero w

theorem mem_eps (w : List σ) : w ∈ (eps : Regex σ).lang ↔ w = [] := Language.mem_one w

theorem mem_cls (p : σ → Bool) (w : List σ) : w ∈ (cls p).lang ↔ ∃ a, p a = true ∧ w = [a] :=
  Iff.rfl

theorem mem_seq (r s : Regex σ) (w : List σ) :
    w ∈ (seq r s).lang ↔ ∃ u ∈ r.lang, ∃ v ∈ s.lang, u ++ v = w := Language.mem_mul

theorem mem_alt (r s : Regex σ) (w : List σ) :
    w ∈ (alt r s).lang ↔ w ∈ r.lang ∨ w ∈ s.lang := Language.mem_add _ _ w

theorem mem_star (r : Regex σ) (w : List σ) :
    w ∈ (star r).lang ↔ ∃ S : List (List σ), w = S.flatten ∧ ∀ y ∈ S, y ∈ r.lang ∧ y ≠ [] :=
  Language.mem_kstar_iff_exists_nonempty

/-- Whether the empty word is matched. -/
def nullable : Regex σ → Bool
  | empty => false
  | eps => true
  | cls _ => false
  | seq r s => r.nullable && s.nullable
  | alt r s => r.nullable || s.nullable
  | star _ => true

/-- The Brzozowski derivative: the words `w` such that `a :: w` is matched. -/
def deriv (a : σ) : Regex σ → Regex σ
  | empty => empty
  | eps => empty
  | cls p => if p a then eps else empty
  | seq r s => if r.nullable then alt (seq (deriv a r) s) (deriv a s) else seq (deriv a r) s
  | alt r s => alt (deriv a r) (deriv a s)
  | star r => seq (deriv a r) (star r)

/-- Matching by successive derivatives. -/
def rmatch : Regex σ → List σ → Bool
  | r, [] => r.nullable
  | r, a :: w => rmatch (deriv a r) w

theorem nullable_iff (r : Regex σ) : r.nullable = true ↔ [] ∈ r.lang := by
  induction r with
  | empty => simpa [nullable] using not_mem_empty []
  | eps => simp [nullable, mem_eps]
  | cls p => simp [nullable, mem_cls]
  | seq r s ihr ihs => simp [nullable, mem_seq, ihr, ihs]
  | alt r s ihr ihs => simp [nullable, mem_alt, ihr, ihs]
  | star r => simpa [nullable] using (mem_star r []).mpr ⟨[], rfl, by simp⟩

/-- A word `a :: w` of a concatenation either begins in the left factor, or the left
factor takes the empty word. -/
theorem cons_mem_seq (a : σ) (w : List σ) (r s : Regex σ) :
    a :: w ∈ (seq r s).lang ↔
      (∃ u, a :: u ∈ r.lang ∧ ∃ v ∈ s.lang, u ++ v = w) ∨ ([] ∈ r.lang ∧ a :: w ∈ s.lang) := by
  rw [mem_seq]
  constructor
  · rintro ⟨u, hu, v, hv, huv⟩
    cases u with
    | nil => exact .inr ⟨hu, by simpa using huv ▸ hv⟩
    | cons b u =>
      simp only [List.cons_append, List.cons.injEq] at huv
      obtain ⟨rfl, rfl⟩ := huv
      exact .inl ⟨u, hu, v, hv, rfl⟩
  · rintro (⟨u, hu, v, hv, rfl⟩ | ⟨hnil, hs⟩)
    · exact ⟨a :: u, hu, v, hv, rfl⟩
    · exact ⟨[], hnil, a :: w, hs, rfl⟩

theorem mem_deriv (a : σ) (r : Regex σ) (w : List σ) :
    w ∈ (deriv a r).lang ↔ a :: w ∈ r.lang := by
  induction r generalizing w with
  | empty => exact iff_of_false (not_mem_empty w) (not_mem_empty _)
  | eps => exact iff_of_false (not_mem_empty w) (by simp [mem_eps])
  | cls p =>
    by_cases hp : p a = true
    · simp [deriv, hp, mem_eps, mem_cls]
    · rw [deriv, if_neg hp]
      exact iff_of_false (not_mem_empty w) (by simp [mem_cls, hp])
  | seq r s ihr ihs =>
    have hleft : w ∈ (seq (deriv a r) s).lang ↔ ∃ u, a :: u ∈ r.lang ∧ ∃ v ∈ s.lang, u ++ v = w := by
      simp only [mem_seq, ihr]
    rw [cons_mem_seq, ← nullable_iff, ← ihs, ← hleft]
    by_cases hn : r.nullable = true
    · simp only [deriv, hn, if_true, mem_alt, true_and]
    · simp only [deriv, hn, Bool.false_eq_true, if_false, false_and, or_false]
  | alt r s ihr ihs => simp [deriv, mem_alt, ihr, ihs]
  | star r ihr =>
    simp only [deriv, mem_seq, mem_star, ihr]
    constructor
    · rintro ⟨u, hu, v, ⟨S, rfl, hS⟩, rfl⟩
      refine ⟨(a :: u) :: S, by simp, ?_⟩
      intro y hy
      rcases List.mem_cons.mp hy with rfl | hy
      · exact ⟨hu, List.cons_ne_nil _ _⟩
      · exact hS y hy
    · rintro ⟨S, hS, hmem⟩
      cases S with
      | nil => cases hS
      | cons y S =>
        obtain ⟨hy, hne⟩ := hmem y List.mem_cons_self
        obtain ⟨b, u, rfl⟩ := List.exists_cons_of_ne_nil hne
        simp only [List.flatten_cons, List.cons_append, List.cons.injEq] at hS
        obtain ⟨rfl, rfl⟩ := hS
        exact ⟨u, hy, S.flatten, ⟨S, rfl, fun z hz => hmem z (List.mem_cons_of_mem _ hz)⟩, rfl⟩

theorem rmatch_iff (r : Regex σ) (w : List σ) : r.rmatch w = true ↔ w ∈ r.lang := by
  induction w generalizing r with
  | nil => exact nullable_iff r
  | cons a w ih => rw [rmatch, ih, mem_deriv]

instance (r : Regex σ) : DecidablePred (· ∈ r.lang) := fun w =>
  decidable_of_iff _ (rmatch_iff r w)

/-- `r?` -/
def opt (r : Regex σ) : Regex σ := alt eps r

/-- `r+` -/
def plus (r : Regex σ) : Regex σ := seq r (star r)

/-- One given character. -/
def char [DecidableEq σ] (c : σ) : Regex σ := cls (fun a => decide (a = c))

/-- A fixed word. -/
def str [DecidableEq σ] : List σ → Regex σ
  | [] => eps
  | c :: cs => seq (char c) (str cs)

/-- `r{0,n}` -/
def upTo (r : Regex σ) : Nat → Regex σ
  | 0 => eps
  | n + 1 => opt (seq r (upTo r n))

theorem mem_opt (r : Regex σ) (w : List σ) : w ∈ (opt r).lang ↔ w = [] ∨ w ∈ r.lang := by
  rw [opt, mem_alt, mem_eps]

theorem mem_char [DecidableEq σ] (c : σ) (w : List σ) : w ∈ (char c).lang ↔ w = [c] := by
  simp [char, mem_cls]

theorem mem_star_cls (p : σ → Bool) (w : List σ) : w ∈ (star (cls p)).lang ↔ ∀ a ∈ w, p a = true := by
  rw [mem_star]
  constructor
  · rintro ⟨S, rfl, hS⟩ a ha
    obtain ⟨y, hy, hay⟩ := List.mem_flatten.mp ha
    obtain ⟨⟨b, hb, rfl⟩, -⟩ := hS y hy
    rw [List.mem_singleton.mp hay]
    exact hb
  · intro hw
    refine ⟨w.map fun a => [a], by simp [← List.flatMap_def], ?_⟩
    intro y hy
    obtain ⟨a, ha, rfl⟩ := List.mem_map.mp hy
    exact ⟨⟨a, hw a ha, rfl⟩, List.cons_ne_nil a []⟩

theorem mem_plus_cls (p : σ → Bool) (w : List σ) :
    w ∈ (plus (cls p)).lang ↔ w ≠ [] ∧ ∀ a ∈ w, p a = true := by
  rw [plus, mem_seq]
  constructor
  · rintro ⟨_, ⟨a, ha, rfl⟩, v, hv, rfl⟩
    refine ⟨List.cons_ne_nil a v, ?_⟩
    intro b hb
    rcases List.mem_cons.mp hb with rfl | hb
    · exact ha
    · exact (mem_star_cls p v).mp hv b hb
  · rintro ⟨hne, hw⟩
    obtain ⟨a, v, rfl⟩ := List.exists_cons_of_ne_nil hne
    refine ⟨[a], ⟨a, hw a List.mem_cons_self, rfl⟩, v, ?_, rfl⟩
    exact (mem_star_cls p v).mpr fun b hb => hw b (List.mem_cons_of_mem a hb)

theorem mem_str [DecidableEq σ] (u w : List σ) : w ∈ (str u).lang ↔ w = u := by
  induction u generalizing w with
  | nil => exact mem_eps w
  | cons c u ih =>
    simp only [str, mem_seq, mem_char, ih]
    constructor
    · rintro ⟨_, rfl, _, rfl, rfl⟩
      rfl
    · rintro rfl
      exact ⟨[c], rfl, u, rfl, rfl⟩

/-- `subs` splits `w` into one piece per regex of `rs`, each piece matched by its regex: the
submatches of a match of the concatenation of the groups `(r₁)(r₂)…(rₖ)`. -/
def Splits (rs : List (Regex σ)) (w : List σ) (subs : List (List σ)) : Prop :=
  List.Forall₂ (fun r s => s ∈ r.lang) rs subs ∧ subs.flatten = w

theorem splits_nil (w : List σ) (subs : List (List σ)) :
    Splits [] w subs ↔ subs = [] ∧ w = [] := by
  constructor
  · rintro ⟨h, rfl⟩
    cases h
    exact ⟨rfl, rfl⟩
  · rintro ⟨rfl, rfl⟩
    exact ⟨.nil, rfl⟩

theorem splits_cons (r : Regex σ) (rs : List (Regex σ)) (w : List σ) (s : List σ)
    (subs : List (List σ)) :
    Splits (r :: rs) w (s :: subs) ↔
      s ∈ r.lang ∧ Splits rs subs.flatten subs ∧ w = s ++ subs.flatten := by
  constructor
  · rintro ⟨h, hw⟩
    obtain ⟨hs, hsubs⟩ := List.forall₂_cons.mp h
    exact ⟨hs, ⟨hsubs, rfl⟩, by rw [← hw, List.flatten_cons]⟩
  · rintro ⟨hs, ⟨hsubs, -⟩, rfl⟩
    exact ⟨.cons hs hsubs, List.flatten_cons⟩

/-- The documented behaviour of a submatch search with the anchored regex `^(r₁)…(rₖ)$`: no
result when the word has no decomposition, and otherwise the whole word followed by one
submatch per group, which decompose the word. Which decomposition is returned is left open. -/
structure SubmatchFinder (find : List (Regex σ) → List σ → Option (List (List σ))) : Prop where
  none_iff : ∀ rs w, find rs w = none ↔ ¬ ∃ subs, Splits rs w subs
  some_splits : ∀ rs w res, find rs w = some res → ∃ subs, res = w :: subs ∧ Splits rs w subs

/-- A backtracking search: each regex, from the first, takes the shortest piece that lets the
remaining regexes match the rest. -/
def firstSplit : List (Regex σ) → List σ → Option (List (List σ))
  | [], w => if w.isEmpty then some [] else none
  | r :: rs, w => (List.range (w.length + 1)).findSome? fun i =>
      if r.rmatch (w.take i) then (firstSplit rs (w.drop i)).map (w.take i :: ·) else none

theorem firstSplit_sound {rs : List (Regex σ)} {w : List σ} {subs : List (List σ)}
    (h : firstSplit rs w = some subs) : Splits rs w subs := by
  induction rs generalizing w subs with
  | nil =>
    simp only [firstSplit] at h
    split at h
    · cases h
      exact (splits_nil w []).mpr ⟨rfl, List.isEmpty_iff.mp ‹_›⟩
    · cases h
  | cons r rs ih =>
    obtain ⟨i, -, hi⟩ := List.exists_of_findSome?_eq_some h
    split at hi
    · obtain ⟨rest, hrest, rfl⟩ := Option.map_eq_some_iff.mp hi
      have hsplit := ih hrest
      refine (splits_cons r rs w _ rest).mpr ⟨(rmatch_iff r _).mp ‹_›, ?_, ?_⟩
      · rw [hsplit.2]
        exact hsplit
      · rw [hsplit.2, List.take_append_drop]
    · cases hi

theorem firstSplit_complete {rs : List (Regex σ)} {w : List σ} {subs : List (List σ)}
    (h : Splits rs w subs) : firstSplit rs w ≠ none := by
  induction rs generalizing w subs with
  | nil =>
    obtain ⟨rfl, rfl⟩ := (splits_nil w subs).mp h
    simp [firstSplit]
  | cons r rs ih =>
    cases subs with
    | nil => exact absurd h.1.length_eq (by simp)
    | cons s subs =>
      obtain ⟨hs, hrest, rfl⟩ := (splits_cons r rs w s subs).mp h
      obtain ⟨found, hfound⟩ := Option.ne_none_iff_exists'.mp (ih hrest)
      rw [firstSplit, Ne, List.findSome?_eq_none_iff]
      intro hall
      have hlen : s.length ∈ List.range ((s ++ subs.flatten).length + 1) := by
        simp only [List.mem_range, List.length_append]
        omega
      have := hall s.length hlen
      simp [(rmatch_iff r s).mpr hs, hfound] at this

theorem submatchFinder_firstSplit :
    SubmatchFinder (fun (rs : List (Regex σ)) w => (firstSplit rs w).map (w :: ·)) where
  none_iff rs w := by
    rw [Option.map_eq_none_iff]
    constructor
    · rintro h ⟨subs, hsubs⟩
      exact firstSplit_complete hsubs h
    · intro h
      cases hf : firstSplit rs w with
      | none => rfl
      | some subs => exact absurd ⟨subs, firstSplit_sound hf⟩ h
  some_splits rs w res h := by
    obtain ⟨subs, hsubs, rfl⟩ := Option.map_eq_some_iff.mp h
    exact ⟨subs, rfl, firstSplit_sound hsubs⟩

end Regex
