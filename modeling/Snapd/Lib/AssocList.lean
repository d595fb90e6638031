import Mathlib.Data.List.Basic

/-! Go maps as association lists: `m[k]` is the first member with key `k`, an assignment
replaces that member's value in place or appends a new member, and `delete` drops every
member with the key. The order of the members is the order in which a `range` loop visits
them, one of the orders Go may choose. -/

namespace AssocList

variable {κ ν : Type} [DecidableEq κ]

/-- `m[k]`, with `none` for a missing key. -/
def find : List (κ × ν) → κ → Option ν
  | [], _ => none
  | (k', v) :: m, k => if k' = k then some v else find m k

/-- `m[k] = v`. -/
def insert : List (κ × ν) → κ → ν → List (κ × ν)
  | [], k, v => [(k, v)]
  | (k', v') :: m, k, v => if k' = k then (k, v) :: m else (k', v') :: insert m k v

/-- `delete(m, k)`. -/
def erase (m : List (κ × ν)) (k : κ) : List (κ × ν) := m.filter fun e => e.1 ≠ k

@[simp] theorem find_nil (k : κ) : find ([] : List (κ × ν)) k = none := rfl

@[simp] theorem find_insert_self (m : List (κ × ν)) (k : κ) (v : ν) :
    find (insert m k v) k = some v := by
  induction m with
  | nil => simp [insert, find]
  | cons e m ih =>
    obtain ⟨k', v'⟩ := e
    by_cases h : k' = k
    · simp [insert, find, h]
    · simp [insert, find, h, ih]

theorem find_insert_of_ne (m : List (κ × ν)) {k k₂ : κ} (v : ν) (h : k ≠ k₂) :
    find (insert m k v) k₂ = find m k₂ := by
  induction m with
  | nil => simp [insert, find, h]
  | cons e m ih =>
    obtain ⟨k', v'⟩ := e
    by_cases hk : k' = k
    · subst hk
      simp [insert, find, h]
    · simp only [insert, if_neg hk, find]
      split <;> simp_all

@[simp] theorem find_erase_self (m : List (κ × ν)) (k : κ) : find (erase m k) k = none := by
  induction m with
  | nil => rfl
  | cons e m ih =>
    obtain ⟨k', v'⟩ := e
    by_cases h : k' = k
    · simpa [erase, h] using ih
    · simpa [erase, find, h] using ih

theorem find_erase_of_ne (m : List (κ × ν)) {k k₂ : κ} (h : k ≠ k₂) :
    find (erase m k) k₂ = find m k₂ := by
  induction m with
  | nil => rfl
  | cons e m ih =>
    obtain ⟨k', v'⟩ := e
    by_cases hk : k' = k
    · subst hk
      have ih' : find (erase m k') k₂ = find m k₂ := ih
      simp [erase, find, h] at ih' ⊢
      exact ih'
    · have ih' : find (erase m k) k₂ = find m k₂ := ih
      simp [erase, find, hk] at ih' ⊢
      rw [ih']

theorem insert_ne_nil (m : List (κ × ν)) (k : κ) (v : ν) : insert m k v ≠ [] := by
  cases m with
  | nil => simp [insert]
  | cons e m =>
    obtain ⟨k', v'⟩ := e
    unfold insert
    split <;> simp

theorem find_of_length_one {m : List (κ × ν)} {k k₂ : κ} (hlen : m.length = 1)
    (hk : (find m k).isSome) (h : k ≠ k₂) : find m k₂ = none := by
  match m, hlen with
  | [(k', v')], _ =>
    by_cases h' : k' = k
    · subst h'
      simp [find, h]
    · simp [find, h'] at hk

theorem erase_eq_nil {m : List (κ × ν)} {k : κ} (h : (m.map Prod.fst).Nodup)
    (he : erase m k = []) : m = [] ∨ m.length = 1 ∧ (find m k).isSome := by
  match m, h, he with
  | [], _, _ => exact .inl rfl
  | (k', v) :: m, h, he =>
    have hall : ∀ e ∈ (k', v) :: m, e.1 = k := fun e he' => by
      simpa using List.filter_eq_nil_iff.mp he e he'
    have hk' : k' = k := hall _ List.mem_cons_self
    cases m with
    | nil => simp [find, hk']
    | cons e m =>
      have hdup := (List.nodup_cons.mp h).1
      exact absurd (by simp [hk', ← hall e (by simp)]) hdup

theorem find_insert (m : List (κ × ν)) (k k₂ : κ) (v : ν) :
    find (insert m k v) k₂ = if k = k₂ then some v else find m k₂ := by
  split
  · subst k₂
    exact find_insert_self m k v
  · exact find_insert_of_ne m v ‹_›

theorem mem_keys_insert (m : List (κ × ν)) (k k₂ : κ) (v : ν) :
    k₂ ∈ (insert m k v).map Prod.fst ↔ k₂ = k ∨ k₂ ∈ m.map Prod.fst := by
  induction m with
  | nil => simp [insert]
  | cons e m ih =>
    obtain ⟨k', v'⟩ := e
    by_cases h : k' = k
    · subst h
      simp [insert]
    · simp only [insert, if_neg h, List.map_cons, List.mem_cons, ih]
      tauto

theorem nodup_keys_insert {m : List (κ × ν)} (h : (m.map Prod.fst).Nodup) (k : κ) (v : ν) :
    ((insert m k v).map Prod.fst).Nodup := by
  induction m with
  | nil => simp [insert]
  | cons e m ih =>
    obtain ⟨k', v'⟩ := e
    have ⟨hk', hm⟩ := List.nodup_cons.mp h
    by_cases hk : k' = k
    · subst hk
      simpa [insert] using h
    · simp only [insert, if_neg hk, List.map_cons, List.nodup_cons, mem_keys_insert]
      exact ⟨by tauto, ih hm⟩

theorem isSome_find_iff (m : List (κ × ν)) (k : κ) :
    (find m k).isSome ↔ k ∈ m.map Prod.fst := by
  induction m with
  | nil => simp
  | cons e m ih =>
    obtain ⟨k', v'⟩ := e
    by_cases hk : k' = k
    · simp [find, hk]
    · simp [find, hk, ih, Ne.symm hk]

theorem find_eq_some_iff {m : List (κ × ν)} (h : (m.map Prod.fst).Nodup) (k : κ) (v : ν) :
    find m k = some v ↔ (k, v) ∈ m := by
  induction m with
  | nil => simp
  | cons e m ih =>
    obtain ⟨k', v'⟩ := e
    have ⟨hk', hm⟩ := List.nodup_cons.mp h
    by_cases hk : k' = k
    · subst hk
      have hnot : (k', v) ∉ m := fun hmem => hk' (List.mem_map.mpr ⟨_, hmem, rfl⟩)
      simp [find, hnot, eq_comm]
    · simp [find, hk, ih hm, Ne.symm hk]

theorem insert_of_find_eq_none {m : List (κ × ν)} {k : κ} (h : find m k = none) (v : ν) :
    insert m k v = m ++ [(k, v)] := by
  induction m with
  | nil => rfl
  | cons e m ih =>
    obtain ⟨k', v'⟩ := e
    have hk : k' ≠ k := by
      intro hk
      simp [find, hk] at h
    have hm : find m k = none := by simpa [find, hk] using h
    simp [insert, hk, ih hm]

theorem nodup_keys_erase {m : List (κ × ν)} (h : (m.map Prod.fst).Nodup) (k : κ) :
    ((erase m k).map Prod.fst).Nodup :=
  (List.filter_sublist.map Prod.fst).nodup h

theorem find_perm {m m' : List (κ × ν)} (h : (m.map Prod.fst).Nodup) (hp : m.Perm m') (k : κ) :
    find m k = find m' k := by
  have h' : (m'.map Prod.fst).Nodup := (hp.map Prod.fst).nodup_iff.mp h
  apply Option.ext
  intro v
  rw [find_eq_some_iff h, find_eq_some_iff h', hp.mem_iff]

/-- A map with its keys renamed by `r`, dropping those `r` takes to none, finds under `y` what
the map finds under `s y`, the one key `r` can take to `y`. -/
theorem find_filterMap_rename {κ' : Type} [DecidableEq κ'] (m : List (κ × ν))
    {r : κ → Option κ'} {s : κ' → κ} (hs : ∀ x y, r x = some y → s y = x) (y : κ') :
    find (m.filterMap fun e => (r e.1).map fun y => (y, e.2)) y =
      if r (s y) = some y then find m (s y) else none := by
  induction m with
  | nil => simp
  | cons e m ih =>
    obtain ⟨x, v⟩ := e
    by_cases hxy : r x = some y
    · have hsx : s y = x := hs x y hxy
      simp [find, hxy, hsx]
    · -- the head is dropped or renamed to another key, so the rest decides
      have hhead : find (((x, v) :: m).filterMap fun e => (r e.1).map fun y => (y, e.2)) y =
          find (m.filterMap fun e => (r e.1).map fun y => (y, e.2)) y := by
        cases hrx : r x with
        | none => simp [hrx]
        | some y' =>
          have hne : y' ≠ y := fun h => hxy (by rw [hrx, h])
          simp [hrx, find, hne]
      rw [hhead, ih]
      split
      · rename_i hsy
        have hx : x ≠ s y := fun h => hxy (by rw [h]; exact hsy)
        simp [find, hx]
      · rfl

theorem forall_mem_iff {m : List (κ × ν)} (h : (m.map Prod.fst).Nodup) (p : κ → ν → Prop) :
    (∀ e ∈ m, p e.1 e.2) ↔ ∀ k v, find m k = some v → p k v := by
  constructor
  · intro hp k v hkv
    exact hp (k, v) ((find_eq_some_iff h k v).mp hkv)
  · intro hp e he
    exact hp e.1 e.2 ((find_eq_some_iff h e.1 e.2).mpr he)

theorem exists_mem_iff {m : List (κ × ν)} (h : (m.map Prod.fst).Nodup) (p : κ → ν → Prop) :
    (∃ e ∈ m, p e.1 e.2) ↔ ∃ k v, find m k = some v ∧ p k v := by
  constructor
  · rintro ⟨e, he, hp⟩
    exact ⟨e.1, e.2, (find_eq_some_iff h e.1 e.2).mpr he, hp⟩
  · rintro ⟨k, v, hkv, hp⟩
    exact ⟨(k, v), (find_eq_some_iff h k v).mp hkv, hp⟩

theorem forall_congr_of_rel {m m' : List (κ × ν)} (h : (m.map Prod.fst).Nodup)
    (h' : (m'.map Prod.fst).Nodup) {S : ν → ν → Prop} (hS : ∀ k, Option.Rel S (find m k) (find m' k))
    {p : ν → Prop} (hp : ∀ v v', S v v' → (p v ↔ p v')) :
    (∀ e ∈ m, p e.2) ↔ ∀ e ∈ m', p e.2 := by
  rw [forall_mem_iff h fun _ v => p v, forall_mem_iff h' fun _ v => p v]
  constructor
  · intro hall k v' hv'
    have hk := hS k
    cases hv : find m k with
    | none =>
      rw [hv, hv'] at hk
      cases hk
    | some v =>
      rw [hv, hv'] at hk
      cases hk with
      | some hvv => exact (hp _ _ hvv).mp (hall k v hv)
  · intro hall k v hv
    have hk := hS k
    cases hv' : find m' k with
    | none =>
      rw [hv, hv'] at hk
      cases hk
    | some v' =>
      rw [hv, hv'] at hk
      cases hk with
      | some hvv => exact (hp _ _ hvv).mpr (hall k v' hv')

/-- `m[k] = append(m[k], x)` for a map of slices. -/
def appendAt (m : List (κ × List ν)) (k : κ) (x : ν) : List (κ × List ν) :=
  insert m k ((find m k).getD [] ++ [x])

theorem find_appendAt (m : List (κ × List ν)) (k k₂ : κ) (x : ν) :
    find (appendAt m k x) k₂ =
      if k = k₂ then some ((find m k).getD [] ++ [x]) else find m k₂ :=
  find_insert m k k₂ _

theorem mem_keys_appendAt (m : List (κ × List ν)) (k k₂ : κ) (x : ν) :
    k₂ ∈ (appendAt m k x).map Prod.fst ↔ k₂ = k ∨ k₂ ∈ m.map Prod.fst :=
  mem_keys_insert m k k₂ _

theorem mem_find_appendAt {m : List (κ × List ν)} {k k₂ : κ} {x y : ν} :
    y ∈ (find (appendAt m k x) k₂).getD [] ↔ y ∈ (find m k₂).getD [] ∨ (k = k₂ ∧ y = x) := by
  rw [find_appendAt]
  by_cases hk : k = k₂
  · subst hk
    simp
  · simp [hk]

theorem flatMap_appendAt_perm (m : List (κ × List ν)) (k : κ) (x : ν) :
    ((appendAt m k x).flatMap Prod.snd).Perm (m.flatMap Prod.snd ++ [x]) := by
  unfold appendAt
  induction m with
  | nil => simp [insert]
  | cons e m ih =>
    obtain ⟨k', v'⟩ := e
    by_cases hk : k' = k
    · subst hk
      simpa [find, insert] using (@List.perm_append_comm _ [x] (m.flatMap Prod.snd)).append_left v'
    · simp only [find, if_neg hk, insert, List.flatMap_cons, List.append_assoc]
      exact ih.append_left v'

theorem flatMap_find_perm {m : List (κ × List ν)} {ks : List κ} (hks : ks.Nodup)
    (hm : (m.map Prod.fst).Nodup) (hcover : ∀ k ∈ m.map Prod.fst, k ∈ ks) :
    (ks.flatMap fun k => (find m k).getD []).Perm (m.flatMap Prod.snd) := by
  induction m generalizing ks with
  | nil => simp
  | cons e m ih =>
    obtain ⟨k, v⟩ := e
    obtain ⟨hk, hm'⟩ := List.nodup_cons.mp hm
    have hkks : k ∈ ks := hcover k List.mem_cons_self
    have hrest : ((ks.erase k).flatMap fun j => (find ((k, v) :: m) j).getD []) =
        (ks.erase k).flatMap fun j => (find m j).getD [] := by
      apply List.flatMap_congr
      intro j hj
      have hkj : k ≠ j := fun h => (hks.mem_erase_iff.mp hj).1 h.symm
      simp [find, hkj]
    have hcover' : ∀ j ∈ m.map Prod.fst, j ∈ ks.erase k := fun j hj =>
      hks.mem_erase_iff.mpr ⟨fun h => hk (h ▸ hj), hcover j (List.mem_cons_of_mem _ hj)⟩
    have hperm := (List.perm_cons_erase hkks).flatMap_right fun j => (find ((k, v) :: m) j).getD []
    rw [List.flatMap_cons, hrest] at hperm
    refine hperm.trans ?_
    simpa [find] using (ih (hks.erase k) hm' hcover').append_left v

/-- The update of a map of accumulators: `fresh` under a new key `k`, `f v` in place of the
value `v` under a key it has. -/
def upsert (m : List (κ × ν)) (k : κ) (fresh : ν) (f : ν → ν) : List (κ × ν) :=
  match find m k with
  | none => insert m k fresh
  | some v => insert m k (f v)

theorem find_upsert (m : List (κ × ν)) (k k₂ : κ) (fresh : ν) (f : ν → ν) :
    find (upsert m k fresh f) k₂ =
      if k = k₂ then some ((find m k).elim fresh f) else find m k₂ := by
  unfold upsert
  cases find m k <;> simp [find_insert]

section Assignments

variable {α : Type}

theorem find_foldl_insert_const (f : α → κ) (v : ν) (l : List α) (m : List (κ × ν)) (k : κ) :
    find (l.foldl (fun m x => insert m (f x) v) m) k = if k ∈ l.map f then some v else find m k := by
  induction l generalizing m with
  | nil => simp
  | cons x l ih =>
    rw [List.foldl_cons, ih, find_insert]
    by_cases hk : k ∈ l.map f
    · simp [hk]
    · have hx : k = f x ↔ f x = k := eq_comm
      by_cases hx' : f x = k <;> simp [hk, hx, hx']

theorem find_foldl_insert_of_not_mem (f : α → κ) (g : α → ν) {l : List α} {k : κ}
    (hk : k ∉ l.map f) (m : List (κ × ν)) :
    find (l.foldl (fun m x => insert m (f x) (g x)) m) k = find m k := by
  induction l generalizing m with
  | nil => rfl
  | cons x l ih =>
    have hx : f x ≠ k := fun h => hk (by simp [← h])
    rw [List.foldl_cons, ih (fun h => hk (List.mem_cons_of_mem _ h)), find_insert_of_ne m _ hx]

theorem find_foldl_insert_of_mem (f : α → κ) (g : α → ν) {l : List α} (h : (l.map f).Nodup)
    {x : α} (hx : x ∈ l) (m : List (κ × ν)) :
    find (l.foldl (fun m x => insert m (f x) (g x)) m) (f x) = some (g x) := by
  induction l generalizing m with
  | nil => cases hx
  | cons y l ih =>
    have ⟨hy, hl⟩ := List.nodup_cons.mp h
    rw [List.foldl_cons]
    rcases List.mem_cons.mp hx with rfl | hx
    · rw [find_foldl_insert_of_not_mem f g hy, find_insert_self]
    · exact ih hl hx _

theorem find_foldl_insert_perm (f : α → κ) (g : α → ν) {l l' : List α} (h : (l.map f).Nodup)
    (hp : l.Perm l') (m : List (κ × ν)) (k : κ) :
    find (l.foldl (fun m x => insert m (f x) (g x)) m) k =
      find (l'.foldl (fun m x => insert m (f x) (g x)) m) k := by
  have h' : (l'.map f).Nodup := (hp.map f).nodup_iff.mp h
  by_cases hk : k ∈ l.map f
  · obtain ⟨x, hx, rfl⟩ := List.mem_map.mp hk
    rw [find_foldl_insert_of_mem f g h hx, find_foldl_insert_of_mem f g h' (hp.mem_iff.mp hx)]
  · have hk' : k ∉ l'.map f := fun h => hk ((hp.map f).mem_iff.mpr h)
    rw [find_foldl_insert_of_not_mem f g hk, find_foldl_insert_of_not_mem f g hk']

end Assignments

section Grouped

variable {α : Type}

/-- `m` holds, under each key `k` that has items `F k`, one value standing for them by `R`,
and no other key: a map built by folding items into accumulators by key. -/
structure Grouped (m : List (κ × ν)) (F : κ → List α) (R : κ → ν → List α → Prop) : Prop where
  nodup : (m.map Prod.fst).Nodup
  find_eq_none : ∀ k, find m k = none ↔ F k = []
  find_eq_some : ∀ k v, find m k = some v → R k v (F k)

theorem grouped_nil (R : κ → ν → List α → Prop) : Grouped [] (fun _ => ([] : List α)) R :=
  ⟨List.nodup_nil, fun _ => by simp, fun _ _ h => by simp at h⟩

/-- One more item `x` under the key `k`: the accumulator of `k` is started with `fresh` or
updated by `f`, and no other key changes. -/
theorem Grouped.upsert {m : List (κ × ν)} {F : κ → List α} {R : κ → ν → List α → Prop}
    (h : Grouped m F R) {k : κ} {x : α} (fresh : ν) (f : ν → ν)
    (hfresh : R k fresh [x]) (hf : ∀ v, R k v (F k) → R k (f v) (F k ++ [x])) :
    Grouped (upsert m k fresh f) (fun k₂ => F k₂ ++ if k = k₂ then [x] else []) R := by
  refine ⟨?_, ?_, ?_⟩
  · unfold AssocList.upsert
    split <;> exact nodup_keys_insert h.nodup _ _
  · intro k₂
    rw [find_upsert]
    by_cases hk : k = k₂ <;> simp [hk, h.find_eq_none]
  · intro k₂ v hv
    rw [find_upsert] at hv
    by_cases hk : k = k₂
    · subst hk
      simp only [if_true, Option.some.injEq] at hv
      subst hv
      cases hfind : find m k with
      | none =>
        have hnil : F k = [] := (h.find_eq_none k).mp hfind
        simpa [hnil] using hfresh
      | some v => simpa using hf v (h.find_eq_some k v hfind)
    · rw [if_neg hk] at hv
      simpa [hk] using h.find_eq_some k₂ v hv

/-- Two maps grouped from items that are empty at the same keys relate key by key, by any
relation that the values standing for the items of one key satisfy. -/
theorem Grouped.rel {β : Type} {m : List (κ × ν)} {m' : List (κ × β)} {F F' : κ → List α}
    {R : κ → ν → List α → Prop} {R' : κ → β → List α → Prop}
    (h : Grouped m F R) (h' : Grouped m' F' R') (hF : ∀ k, F k = [] ↔ F' k = [])
    {S : ν → β → Prop} (hS : ∀ k v v', R k v (F k) → R' k v' (F' k) → S v v') (k : κ) :
    Option.Rel S (find m k) (find m' k) := by
  cases hv : find m k with
  | none =>
    have hnil' : F' k = [] := (hF k).mp ((h.find_eq_none k).mp hv)
    rw [(h'.find_eq_none k).mpr hnil']
    exact .none
  | some v =>
    cases hv' : find m' k with
    | none =>
      have hnil : F k = [] := (hF k).mpr ((h'.find_eq_none k).mp hv')
      rw [(h.find_eq_none k).mpr hnil] at hv
      cases hv
    | some v' => exact .some (hS k v v' (h.find_eq_some k v hv) (h'.find_eq_some k v' hv'))

end Grouped

end AssocList
