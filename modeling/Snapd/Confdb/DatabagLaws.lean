import Snapd.Confdb.Databag

/-! The path laws of the JSON databag, for paths without placeholders: a value read back after
`Set` is the value written (with its `nil` members dropped, as `removeNilValues` does; the
JSON encoding itself changes nothing); a path that neither is a prefix of the written one nor
has it as a prefix reads the same value before and after; `Unset` of a path of map keys
leaves no data there, keeps every other value and empties no map on the path; and `Unset` of
any path keeps the result of every path that parts from it at a map key. Each law is proved
level by level, by induction over the rest of the path, from the inversion lemmas of
`Databag`. -/

namespace Snapd.Confdb

-- reading a raw value unfolds by the equations of these, which the simp set of this module holds
attribute [local simp] getRest unmarshalLevel levelForWrite putElem

/-- A path without placeholders. -/
def Concrete (path : List Accessor) : Prop := ∀ a ∈ path, (∃ k, a = .key k) ∨ ∃ i, a = .index i

/-- A path of map keys only. -/
def KeysOnly (path : List Accessor) : Prop := ∀ a ∈ path, ∃ k, a = .key k

/-- Neither path is a prefix of the other. -/
def Diverge (p q : List Accessor) : Prop := ¬ p <+: q ∧ ¬ q <+: p

theorem Concrete.tail {a : Accessor} {l : List Accessor} (h : Concrete (a :: l)) : Concrete l :=
  fun b hb => h b (List.mem_cons_of_mem _ hb)

theorem KeysOnly.tail {a : Accessor} {l : List Accessor} (h : KeysOnly (a :: l)) : KeysOnly l :=
  fun b hb => h b (List.mem_cons_of_mem _ hb)

theorem Diverge.of_cons {a : Accessor} {l₁ l₂ : List Accessor} (h : Diverge (a :: l₁) (a :: l₂)) :
    Diverge l₁ l₂ ∧ l₁ ≠ [] ∧ l₂ ≠ [] := by
  obtain ⟨h₁, h₂⟩ := h
  refine ⟨⟨fun h => h₁ (List.cons_prefix_cons.mpr ⟨rfl, h⟩),
    fun h => h₂ (List.cons_prefix_cons.mpr ⟨rfl, h⟩)⟩, ?_, ?_⟩
  · rintro rfl
    exact h₁ (List.cons_prefix_cons.mpr ⟨rfl, List.nil_prefix⟩)
  · rintro rfl
    exact h₂ (List.cons_prefix_cons.mpr ⟨rfl, List.nil_prefix⟩)

theorem decodeLevel_toJson (level : Level) : decodeLevel level.toJson = some level := by
  cases level <;> rfl

theorem decodeLevel_eq_map {raw : Json} {members : List (String × Json)}
    (h : decodeLevel raw = some (.map members)) : raw = .obj members := by
  cases raw <;> simp_all [decodeLevel]

theorem getRest_cons_toJson (path : List Accessor) (acc' : Accessor) (rest' : List Accessor)
    (level : Level) : getRest path (acc' :: rest') level.toJson = getLevel path acc' rest' level := by
  simp [decodeLevel_toJson]

theorem getRest_cons_of_decode {path : List Accessor} {acc' : Accessor} {rest' : List Accessor}
    {raw : Json} {level : Level} (h : decodeLevel raw = some level) :
    getRest path (acc' :: rest') raw = getLevel path acc' rest' level := by
  simp [h]

theorem levelForWrite_of_decode {path : List Accessor} {acc' : Accessor} {raw : Json}
    {level : Level} (h : decodeLevel raw = some level) :
    levelForWrite path acc' (some raw) = level := by
  simp [h]

section Reads

variable {done : List Accessor} {acc₂ : Accessor} {rest₂ : List Accessor} {w : Json}

theorem getLevel_map_ok {members : List (String × Json)} (hq : Concrete (acc₂ :: rest₂))
    (h : getLevel done acc₂ rest₂ (.map members) = .ok w) :
    ∃ k raw, acc₂ = .key k ∧ AssocList.find members k = some raw ∧
      getRest (done ++ [.key k]) rest₂ raw = .ok w := by
  rcases hq acc₂ List.mem_cons_self with ⟨k, rfl⟩ | ⟨i, rfl⟩
  · rw [getLevel_key_map] at h
    cases hfind : AssocList.find members k with
    | none => simp [hfind] at h
    | some raw =>
      rw [hfind] at h
      exact ⟨k, raw, rfl, hfind, h⟩
  · simp [getLevel_index_map] at h

theorem getLevel_list_ok {elems : List Json} (hq : Concrete (acc₂ :: rest₂))
    (h : getLevel done acc₂ rest₂ (.list elems) = .ok w) :
    ∃ i raw, acc₂ = .index i ∧ elems[i]? = some raw ∧
      getRest (done ++ [.index i]) rest₂ raw = .ok w := by
  rcases hq acc₂ List.mem_cons_self with ⟨k, rfl⟩ | ⟨i, rfl⟩
  · simp [getLevel_key_list] at h
  · rw [getLevel_index_list] at h
    cases hget : elems[i]? with
    | none => simp [hget] at h
    | some raw =>
      rw [hget] at h
      exact ⟨i, raw, rfl, hget, h⟩

theorem getLevel_nilMap_ne_ok (hq : Concrete (acc₂ :: rest₂)) :
    getLevel done acc₂ rest₂ .nilMap ≠ .ok w := by
  rcases hq acc₂ List.mem_cons_self with ⟨k, rfl⟩ | ⟨i, rfl⟩
  · simp [getLevel_key_nilMap]
  · simp [getLevel_index_nilMap]

theorem getLevel_emptyContainer_ne_ok (acc' : Accessor) (hq : Concrete (acc₂ :: rest₂)) :
    getLevel done acc₂ rest₂ (emptyContainerForType acc') ≠ .ok w := by
  intro h
  cases acc' with
  | key _ | keyPlaceholder _ =>
    obtain ⟨k, raw, -, hfind, -⟩ := getLevel_map_ok hq h
    simp at hfind
  | index _ | indexPlaceholder _ =>
    obtain ⟨i, raw, -, hget, -⟩ := getLevel_list_ok hq h
    simp at hget

end Reads

theorem getElem?_putElem_self {elems : List Json} {i : Nat} (x : Json) (hi : i ≤ elems.length) :
    (putElem elems i x)[i]? = some x := by
  unfold putElem
  split
  · rename_i h
    subst h
    simp
  · rw [List.getElem?_set_self]
    omega

theorem getElem?_putElem_of_ne {elems : List Json} {i j : Nat} (x : Json) (hij : i ≠ j) : (putElem elems i x)[j]? = elems[j]? := by
  unfold putElem
  split
  · -- appending: an index past the end stays past it
    rename_i hlen
    by_cases hj : j < elems.length
    · rw [List.getElem?_append_left hj]
    · rw [List.getElem?_eq_none (by simp; omega), List.getElem?_eq_none (by omega)]
  · rw [List.getElem?_set_ne hij]

theorem setLevel_map_ok {done : List Accessor} {acc : Accessor} {value : Json}
    {rest : List Accessor} {members : List (String × Json)} {level' : Level}
    (h : setLevel done acc value rest (.map members) = .ok level') :
    ∃ members', level' = .map members' := by
  rcases setLevel_eq_ok h with ⟨k, ms, -, -, ⟨-, rfl⟩ | ⟨-, -, -, -, -, rfl⟩⟩ | ⟨i, elems, -, hl, -⟩
  · exact ⟨_, rfl⟩
  · exact ⟨_, rfl⟩
  · cases hl

theorem get_setLevel (rest : List Accessor) : ∀ {done : List Accessor} {acc : Accessor}
    {value : Json} {level level' : Level}, setLevel done acc value rest level = .ok level' →
    getLevel done acc rest level' = .ok (removeNilValues value) := by
  induction rest with
  | nil =>
    intro done acc value level level' h
    rcases setLevel_eq_ok h with ⟨k, members, rfl, rfl, ⟨-, rfl⟩ | ⟨_, _, _, hrest, _, _⟩⟩ |
      ⟨i, elems, rfl, rfl, hi, ⟨-, rfl⟩ | ⟨_, _, _, hrest, _, _⟩⟩
    · rw [getLevel_key_map, AssocList.find_insert_self]
      rfl
    · cases hrest
    · rw [getLevel_index_list, getElem?_putElem_self _ hi]
      rfl
    · cases hrest
  | cons a rest ih =>
    intro done acc value level level' h
    rcases setLevel_eq_ok h with ⟨k, members, rfl, rfl, ⟨hrest, -⟩ | ⟨acc', rest', next', hrest, hset, rfl⟩⟩ |
      ⟨i, elems, rfl, rfl, hi, ⟨hrest, -⟩ | ⟨acc', rest', next', hrest, hset, rfl⟩⟩
    · cases hrest
    · -- the member now holds the level below, written in turn
      obtain ⟨rfl, rfl⟩ := List.cons.inj hrest
      rw [getLevel_key_map, AssocList.find_insert_self]
      simp only
      rw [getRest_cons_toJson]
      exact ih hset
    · cases hrest
    · obtain ⟨rfl, rfl⟩ := List.cons.inj hrest
      rw [getLevel_index_list, getElem?_putElem_self _ hi]
      simp only
      rw [getRest_cons_toJson]
      exact ih hset

theorem getLevel_insert_of_ne {done : List Accessor} {k : String} {members : List (String × Json)}
    {x : Json} {acc₂ : Accessor} {rest₂ : List Accessor} (hq : Concrete (acc₂ :: rest₂))
    (hne : acc₂ ≠ .key k) :
    getLevel done acc₂ rest₂ (.map (AssocList.insert members k x)) =
      getLevel done acc₂ rest₂ (.map members) := by
  rcases hq acc₂ List.mem_cons_self with ⟨k₂, rfl⟩ | ⟨i, rfl⟩
  · have hk : k ≠ k₂ := fun h => hne (by rw [h])
    rw [getLevel_key_map, getLevel_key_map, AssocList.find_insert_of_ne _ _ hk]
  · rw [getLevel_index_map, getLevel_index_map]

/-- Writing element `i` of a list changes nothing a concrete path through another element
reads. -/
theorem getLevel_putElem_of_ne {done : List Accessor} {i : Nat} {elems : List Json} {x : Json}
    {acc₂ : Accessor} {rest₂ : List Accessor} (hq : Concrete (acc₂ :: rest₂))
    (hne : acc₂ ≠ .index i) :
    getLevel done acc₂ rest₂ (.list (putElem elems i x)) = getLevel done acc₂ rest₂ (.list elems) := by
  rcases hq acc₂ List.mem_cons_self with ⟨k₂, rfl⟩ | ⟨i₂, rfl⟩
  · rw [getLevel_key_list, getLevel_key_list]
  · have hij : i ≠ i₂ := fun h => hne (by rw [h])
    rw [getLevel_index_list, getLevel_index_list, getElem?_putElem_of_ne _ hij]

/-- The level `set` writes into reads, for a concrete path, what the old raw value read: it
is that value decoded, or a new empty container where no path reads a value. -/
theorem getLevel_levelForWrite_iff {path path' : List Accessor} {acc' : Accessor}
    {old : Option Json} {a₂ : Accessor} {rs₂ : List Accessor} {w : Json}
    (hq : Concrete (a₂ :: rs₂)) :
    getLevel path' a₂ rs₂ (levelForWrite path acc' old) = .ok w ↔
      (match old with
        | none => (.error .noDataError : Except Fault Json)
        | some raw => getRest path' (a₂ :: rs₂) raw) = .ok w := by
  cases old with
  | none => simpa [levelForWrite] using getLevel_emptyContainer_ne_ok acc' hq
  | some raw =>
    cases hdec : decodeLevel raw with
    | none =>
      have hempty : levelForWrite path acc' (some raw) = emptyContainerForType acc' := by
        simp [hdec]
      rw [hempty]
      simpa [hdec] using getLevel_emptyContainer_ne_ok acc' hq
    | some level =>
      rw [levelForWrite_of_decode hdec]
      simp only
      rw [getRest_cons_of_decode hdec]

theorem getLevel_setLevel_frame (rest : List Accessor) : ∀ {done : List Accessor}
    {acc : Accessor} {value : Json} {level level' : Level} {acc₂ : Accessor}
    {rest₂ : List Accessor} {w : Json}, setLevel done acc value rest level = .ok level' →
    Concrete (acc₂ :: rest₂) → Diverge (acc :: rest) (acc₂ :: rest₂) →
    (getLevel done acc₂ rest₂ level' = .ok w ↔ getLevel done acc₂ rest₂ level = .ok w) := by
  induction rest with
  | nil =>
    intro done acc value level level' acc₂ rest₂ w h hq hdiv
    have hne : acc₂ ≠ acc := by
      rintro rfl
      exact (hdiv.of_cons).2.1 rfl
    rcases setLevel_eq_ok h with ⟨k, members, rfl, rfl, ⟨-, rfl⟩ | ⟨_, _, _, hrest, _, _⟩⟩ |
      ⟨i, elems, rfl, rfl, hi, ⟨-, rfl⟩ | ⟨_, _, _, hrest, _, _⟩⟩
    · rw [getLevel_insert_of_ne hq hne]
    · cases hrest
    · rw [getLevel_putElem_of_ne hq hne]
    · cases hrest
  | cons a rest ih =>
    intro done acc value level level' acc₂ rest₂ w h hq hdiv
    rcases setLevel_eq_ok h with ⟨k, members, rfl, rfl, ⟨hrest, -⟩ | ⟨acc', rest', next', hrest, hset, rfl⟩⟩ |
      ⟨i, elems, rfl, rfl, hi, ⟨hrest, -⟩ | ⟨acc', rest', next', hrest, hset, rfl⟩⟩
    · cases hrest
    · obtain ⟨rfl, rfl⟩ := List.cons.inj hrest
      by_cases hne : acc₂ = .key k
      · -- through the same member: the level below was written in turn
        subst hne
        obtain ⟨hdiv', -, hrest₂⟩ := hdiv.of_cons
        obtain ⟨a₂, rs₂, rfl⟩ := List.exists_cons_of_ne_nil hrest₂
        rw [getLevel_key_map, AssocList.find_insert_self, getLevel_key_map]
        simp only
        rw [getRest_cons_toJson]
        exact (ih hset hq.tail hdiv').trans (getLevel_levelForWrite_iff hq.tail)
      · rw [getLevel_insert_of_ne hq hne]
    · cases hrest
    · obtain ⟨rfl, rfl⟩ := List.cons.inj hrest
      by_cases hne : acc₂ = .index i
      · subst hne
        obtain ⟨hdiv', -, hrest₂⟩ := hdiv.of_cons
        obtain ⟨a₂, rs₂, rfl⟩ := List.exists_cons_of_ne_nil hrest₂
        rw [getLevel_index_list, getElem?_putElem_self _ hi, getLevel_index_list]
        simp only
        rw [getRest_cons_toJson]
        exact (ih hset hq.tail hdiv').trans (getLevel_levelForWrite_iff hq.tail)
      · rw [getLevel_putElem_of_ne hq hne]

theorem getLevel_erase_of_ne {done : List Accessor} {k : String} {members : List (String × Json)}
    {acc₂ : Accessor} {rest₂ : List Accessor} (hq : Concrete (acc₂ :: rest₂))
    (hne : acc₂ ≠ .key k) :
    getLevel done acc₂ rest₂ (.map (AssocList.erase members k)) =
      getLevel done acc₂ rest₂ (.map members) := by
  rcases hq acc₂ List.mem_cons_self with ⟨k₂, rfl⟩ | ⟨i, rfl⟩
  · have hk : k ≠ k₂ := fun h => hne (by rw [h])
    rw [getLevel_key_map, getLevel_key_map, AssocList.find_erase_of_ne _ hk]
  · rw [getLevel_index_map, getLevel_index_map]

theorem mapResult_cases {members : List (String × Json)} {r : Option Json}
    (hr : r = if members = [] then none else some (.obj members)) :
    (r = none → members = []) ∧ ∀ raw, r = some raw → raw = .obj members ∧ members ≠ [] := by
  subst hr
  split <;> simp_all

theorem unsetLevel_key_map_result {done : List Accessor} {k : String} {rest : List Accessor}
    {members : List (String × Json)} {level' : Level} {r : Option Json}
    (h : unsetLevel done (.key k) rest (.map members) = (level', .ok r)) :
    ∃ members', level' = .map members' ∧ (r = none → members' = []) ∧
      ∀ raw, r = some raw → raw = .obj members' := by
  cases rest with
  | nil =>
    rw [unsetLevel_key_map_nil] at h
    split at h
    · obtain ⟨rfl, hr⟩ := Prod.mk.inj h
      cases hr
      exact ⟨[], rfl, fun _ => rfl, fun _ h => by cases h⟩
    · obtain ⟨rfl, hr⟩ := Prod.mk.inj h
      cases hr
      refine ⟨_, rfl, fun h => ?_, fun _ h => ?_⟩ <;> cases h
      rfl
  | cons acc' rest' =>
    obtain ⟨members', rfl, hr, -⟩ := unsetLevel_key_map_cons h
    obtain ⟨hnone, hsome⟩ := mapResult_cases hr
    exact ⟨members', rfl, hnone, fun raw h => (hsome raw h).1⟩

theorem unsetLevel_key_map_find_of_ne {done : List Accessor} {k k₂ : String} {rest : List Accessor}
    {members : List (String × Json)} {level' : Level} {r : Option Json}
    (h : unsetLevel done (.key k) rest (.map members) = (level', .ok r)) (hk : k ≠ k₂) :
    ∃ members', level' = .map members' ∧ (r = none → members' = []) ∧
      (∀ raw, r = some raw → raw = .obj members') ∧
      AssocList.find members' k₂ = AssocList.find members k₂ := by
  obtain ⟨members', hl, hnone, hsome⟩ := unsetLevel_key_map_result h
  refine ⟨members', hl, hnone, hsome, ?_⟩
  subst hl
  cases rest with
  | nil =>
    rw [unsetLevel_key_map_nil] at h
    split at h
    · rename_i hlast
      obtain ⟨hl, -⟩ := Prod.mk.inj h
      cases hl
      rw [AssocList.find_nil, AssocList.find_of_length_one hlast.1 hlast.2 hk]
    · obtain ⟨hl, -⟩ := Prod.mk.inj h
      cases hl
      exact AssocList.find_erase_of_ne _ hk
  | cons acc' rest' =>
    obtain ⟨members'', hl, -, hcase⟩ := unsetLevel_key_map_cons h
    cases hl
    rcases hcase with ⟨-, rfl⟩ | ⟨raw, next, _ | u, -, -, -, rfl⟩
    · rfl
    · exact AssocList.find_erase_of_ne _ hk
    · exact AssocList.find_insert_of_ne _ _ hk

/-- What a successful unset of a key path leaves at one level, seen from the level above. -/
structure UnsetKeys (done : List Accessor) (k : String) (rest : List Accessor) (level : Level)
    (r : Option Json) : Prop where
  /-- The level written back reads no data at the path, and reads every diverging concrete
  path as the old level did. -/
  written : ∀ raw, r = some raw → ∃ level', decodeLevel raw = some level' ∧
    getLevel done (.key k) rest level' = .error .noDataError ∧
    ∀ acc₂ rest₂ w, Concrete (acc₂ :: rest₂) → Diverge (.key k :: rest) (acc₂ :: rest₂) →
      (getLevel done acc₂ rest₂ level' = .ok w ↔ getLevel done acc₂ rest₂ level = .ok w)
  /-- A level removed from its parent held no value for such a path. -/
  removed : r = none → ∀ acc₂ rest₂ w, Concrete (acc₂ :: rest₂) →
    Diverge (.key k :: rest) (acc₂ :: rest₂) → getLevel done acc₂ rest₂ level ≠ .ok w

namespace UnsetKeys

theorem list {done : List Accessor} {k : String} {rest : List Accessor} {elems : List Json}
    {level' : Level} {r : Option Json}
    (h : unsetLevel done (.key k) rest (.list elems) = (level', .ok r)) :
    UnsetKeys done k rest (.list elems) r := by
  rw [unsetLevel_key_list] at h
  cases h

theorem nilMap {done : List Accessor} {k : String} {rest : List Accessor} {level' : Level}
    {r : Option Json} (h : unsetLevel done (.key k) rest .nilMap = (level', .ok r)) :
    UnsetKeys done k rest .nilMap r := by
  rw [unsetLevel_key_nilMap] at h
  obtain ⟨-, hr⟩ := Prod.mk.inj h
  cases hr
  refine ⟨fun raw hraw => ⟨.nilMap, ?_, getLevel_key_nilMap _ _ _, fun _ _ _ _ _ => Iff.rfl⟩,
    fun _ _ _ _ hq _ => getLevel_nilMap_ne_ok hq⟩
  split at hraw
  · cases hraw
    rfl
  · cases hraw

theorem map_nil {done : List Accessor} {k : String} {members : List (String × Json)}
    {level' : Level} {r : Option Json}
    (h : unsetLevel done (.key k) [] (.map members) = (level', .ok r)) :
    UnsetKeys done k [] (.map members) r := by
  rw [unsetLevel_key_map_nil] at h
  split at h
  · rename_i hlast
    obtain ⟨-, hr⟩ := Prod.mk.inj h
    cases hr
    refine ⟨fun _ h => (nomatch h), fun _ acc₂ rest₂ w hq hdiv hget => ?_⟩
    obtain ⟨k₂, raw, rfl, hfind, -⟩ := getLevel_map_ok hq hget
    have hk : k ≠ k₂ := by
      rintro rfl
      exact hdiv.of_cons.2.1 rfl
    simp [AssocList.find_of_length_one hlast.1 hlast.2 hk] at hfind
  · obtain ⟨-, hr⟩ := Prod.mk.inj h
    cases hr
    refine ⟨fun raw hraw => ?_, fun h => nomatch h⟩
    cases hraw
    refine ⟨.map (AssocList.erase members k), rfl, ?_, fun acc₂ rest₂ w hq hdiv => ?_⟩
    · rw [getLevel_key_map, AssocList.find_erase_self]
    · have hne : acc₂ ≠ .key k := by
        rintro rfl
        exact hdiv.of_cons.2.1 rfl
      rw [getLevel_erase_of_ne hq hne]

theorem map_cons {done : List Accessor} {k k' : String} {rest : List Accessor}
    {members : List (String × Json)} {level' : Level} {r : Option Json}
    (ih : ∀ {next : Level} {r' : Option Json},
      (unsetLevel (done ++ [.key k]) (.key k') rest next).2 = .ok r' →
        UnsetKeys (done ++ [.key k]) k' rest next r')
    (h : unsetLevel done (.key k) (.key k' :: rest) (.map members) = (level', .ok r)) :
    UnsetKeys done k (.key k' :: rest) (.map members) r := by
  obtain ⟨members', rfl, hr, hcase⟩ := unsetLevel_key_map_cons h
  obtain ⟨hnone, hsome⟩ := mapResult_cases hr
  -- the path reads no data from the members left
  have hget : getLevel done (.key k) (.key k' :: rest) (.map members') = .error .noDataError := by
    rw [getLevel_key_map]
    rcases hcase with ⟨hfind, rfl⟩ | ⟨raw, next, _ | u, hfind, hdec, hchild, rfl⟩
    · rw [hfind]
    · rw [AssocList.find_erase_self]
    · obtain ⟨next', hdec', hget', -⟩ := (ih hchild).written u rfl
      rw [AssocList.find_insert_self]
      simp only
      rw [getRest_cons_of_decode hdec', hget']
  -- and every diverging concrete path reads from them what it read before
  have hframe : ∀ acc₂ rest₂ w, Concrete (acc₂ :: rest₂) →
      Diverge (.key k :: .key k' :: rest) (acc₂ :: rest₂) →
      (getLevel done acc₂ rest₂ (.map members') = .ok w ↔
        getLevel done acc₂ rest₂ (.map members) = .ok w) := by
    intro acc₂ rest₂ w hq hdiv
    rcases hcase with ⟨-, rfl⟩ | ⟨raw, next, _ | u, hfind, hdec, hchild, rfl⟩
    · exact Iff.rfl
    · by_cases hne : acc₂ = .key k
      · -- the member is gone, and the old one held nothing for the path
        subst hne
        obtain ⟨hdiv', -, hrest₂⟩ := hdiv.of_cons
        obtain ⟨a₂, rs₂, rfl⟩ := List.exists_cons_of_ne_nil hrest₂
        rw [getLevel_key_map, getLevel_key_map, AssocList.find_erase_self, hfind]
        simp only
        rw [getRest_cons_of_decode hdec]
        exact iff_of_false nofun ((ih hchild).removed rfl _ _ _ hq.tail hdiv')
      · rw [getLevel_erase_of_ne hq hne]
    · by_cases hne : acc₂ = .key k
      · -- the member is written back, and the level below keeps the path's value
        subst hne
        obtain ⟨hdiv', -, hrest₂⟩ := hdiv.of_cons
        obtain ⟨a₂, rs₂, rfl⟩ := List.exists_cons_of_ne_nil hrest₂
        obtain ⟨next', hdec', -, hfr⟩ := (ih hchild).written u rfl
        rw [getLevel_key_map, getLevel_key_map, AssocList.find_insert_self, hfind]
        simp only
        rw [getRest_cons_of_decode hdec', getRest_cons_of_decode hdec]
        exact hfr _ _ _ hq.tail hdiv'
      · rw [getLevel_insert_of_ne hq hne]
  refine ⟨fun raw hraw => ?_, fun hr0 acc₂ rest₂ w hq hdiv hbefore => ?_⟩
  · obtain ⟨rfl, -⟩ := hsome raw hraw
    exact ⟨.map members', rfl, hget, hframe⟩
  · -- an emptied map held nothing for a diverging path
    obtain ⟨k₂, raw, -, hfind, -⟩ := getLevel_map_ok hq ((hframe _ _ _ hq hdiv).mpr hbefore)
    rw [hnone hr0] at hfind
    cases hfind

end UnsetKeys

/-- Every map read along the rest of an unset path at this level has distinct keys, as a Go
map has. -/
def DistinctAlong (done : List Accessor) (k : String) (rest : List Accessor) (level : Level) :
    Prop :=
  ∀ r' members, r' <+: rest → r' ≠ rest → getLevel done (.key k) r' level = .ok (.obj members) →
    (members.map Prod.fst).Nodup

/-- What a successful unset of a key path leaves empty at one level, seen from the level above:
a map written back empty was empty, and a map on the rest of the path reads empty only if it
read empty before. -/
structure UnsetEmptied (done : List Accessor) (k : String) (rest : List Accessor) (level : Level)
    (r : Option Json) : Prop where
  empty : (∀ members, level = .map members → (members.map Prod.fst).Nodup) →
    r = some (.obj []) → level = .map []
  along : DistinctAlong done k rest level → ∀ raw level', r = some raw →
    decodeLevel raw = some level' → ∀ r', r' <+: rest → r' ≠ rest →
      getLevel done (.key k) r' level' = .ok (.obj []) → getLevel done (.key k) r' level = .ok (.obj [])

namespace UnsetEmptied

variable {done : List Accessor} {k : String}

theorem list {rest : List Accessor} {elems : List Json} {level' : Level} {r : Option Json}
    (h : unsetLevel done (.key k) rest (.list elems) = (level', .ok r)) :
    UnsetEmptied done k rest (.list elems) r := by
  rw [unsetLevel_key_list] at h
  cases h

theorem nilMap {rest : List Accessor} {level' : Level} {r : Option Json}
    (h : unsetLevel done (.key k) rest .nilMap = (level', .ok r)) :
    UnsetEmptied done k rest .nilMap r := by
  rw [unsetLevel_key_nilMap] at h
  have hr := (Except.ok.inj (Prod.mk.inj h).2).symm
  refine ⟨fun _ hraw => ?_, fun _ raw _ hraw _ r' hr' hne => ?_⟩
  · cases rest <;> simp [hr] at hraw
  · cases rest with
    | nil => exact absurd (List.prefix_nil.mp hr') hne
    | cons _ _ => simp [hr] at hraw

theorem map_nil {members : List (String × Json)} {level' : Level} {r : Option Json}
    (h : unsetLevel done (.key k) [] (.map members) = (level', .ok r)) :
    UnsetEmptied done k [] (.map members) r := by
  refine ⟨fun hkeys hr => ?_, fun _ _ _ _ _ r' hr' hne => absurd (List.prefix_nil.mp hr') hne⟩
  rw [unsetLevel_key_map_nil] at h
  split at h
  · cases (Except.ok.inj (Prod.mk.inj h).2).trans hr
  · rename_i hlast
    have herase : AssocList.erase members k = [] := by
      have := (Except.ok.inj (Prod.mk.inj h).2).trans hr
      simp only [Option.some.injEq, Json.obj.injEq] at this
      exact this
    rcases AssocList.erase_eq_nil (hkeys members rfl) herase with rfl | hone
    · rfl
    · exact absurd hone hlast

/-- A key below a map: a member written back empty was empty, by the level below, and so is
every map further along the path. -/
theorem map_cons {k' : String} {rest : List Accessor} {members : List (String × Json)}
    {level' : Level} {r : Option Json}
    (ih : ∀ {next : Level} {r' : Option Json},
      (unsetLevel (done ++ [.key k]) (.key k') rest next).2 = .ok r' →
        UnsetEmptied (done ++ [.key k]) k' rest next r')
    (h : unsetLevel done (.key k) (.key k' :: rest) (.map members) = (level', .ok r)) :
    UnsetEmptied done k (.key k' :: rest) (.map members) r := by
  obtain ⟨members', rfl, hr, hcase⟩ := unsetLevel_key_map_cons h
  obtain ⟨hnone, hsome⟩ := mapResult_cases hr
  refine ⟨fun _ hr0 => absurd (hsome _ hr0).1 (fun he => (hsome _ hr0).2 (Json.obj.inj he).symm),
    fun hkeys raw level'' hraw hdec r' hr' hne hget => ?_⟩
  obtain ⟨rfl, -⟩ := hsome raw hraw
  cases hdec
  rw [getLevel_key_map] at hget ⊢
  rcases hcase with ⟨hfind, rfl⟩ | ⟨raw, next, _ | u, hfind, hdec, hchild, rfl⟩
  · rw [hfind] at hget
    cases hget
  · rw [AssocList.find_erase_self] at hget
    cases hget
  · rw [AssocList.find_insert_self] at hget
    rw [hfind]
    simp only at hget ⊢
    rcases List.prefix_cons_iff.mp hr' with rfl | ⟨r'', rfl, hr''⟩
    · -- the member itself reads empty: it was written back empty, so it was empty
      have hu : u = .obj [] := Except.ok.inj hget
      have hdistinct : ∀ ms, next = .map ms → (ms.map Prod.fst).Nodup := by
        rintro ms rfl
        apply hkeys [] ms List.nil_prefix hne
        rw [getLevel_key_map, hfind]
        simp only
        rw [decodeLevel_eq_map hdec]
        rfl
      rw [decodeLevel_eq_map (hdec.trans (congrArg some ((ih hchild).empty hdistinct (hu ▸ rfl))))]
      rfl
    · -- a map further along: the level below keeps it non-empty unless it was empty
      have hne' : r'' ≠ rest := fun h => hne (by rw [h])
      have hdistinct : DistinctAlong (done ++ [.key k]) k' rest next := by
        intro r₃ ms hr₃ hne₃ hget₃
        apply hkeys (.key k' :: r₃) ms (List.cons_prefix_cons.mpr ⟨rfl, hr₃⟩)
          (fun h => hne₃ (List.cons.inj h).2)
        rw [getLevel_key_map, hfind]
        simp only
        rw [getRest_cons_of_decode hdec, hget₃]
      cases hdu : decodeLevel u with
      | none => simp [hdu] at hget
      | some next' =>
        rw [getRest_cons_of_decode hdu] at hget
        rw [getRest_cons_of_decode hdec]
        exact (ih hchild).along hdistinct u next' rfl hdu r'' hr'' hne' hget

end UnsetEmptied

/-- `Unset` of a key path: what it leaves at each level, by induction over the rest of the
path. -/
theorem unsetLevel_keys (rest : List Accessor) : ∀ {done : List Accessor} {k : String}
    {level level' : Level} {r : Option Json}, KeysOnly rest →
    unsetLevel done (.key k) rest level = (level', .ok r) →
      UnsetKeys done k rest level r ∧ UnsetEmptied done k rest level r := by
  induction rest with
  | nil =>
    intro done k level level' r _ h
    cases level with
    | map members => exact ⟨UnsetKeys.map_nil h, UnsetEmptied.map_nil h⟩
    | nilMap => exact ⟨UnsetKeys.nilMap h, UnsetEmptied.nilMap h⟩
    | list elems => exact ⟨UnsetKeys.list h, UnsetEmptied.list h⟩
  | cons a rest ih =>
    intro done k level level' r hkeys h
    obtain ⟨k', rfl⟩ := hkeys a List.mem_cons_self
    have ih' := fun {next} {r'} hchild => @ih (done ++ [.key k]) k' next _ r' hkeys.tail (Prod.ext rfl hchild)
    cases level with
    | map members =>
      exact ⟨UnsetKeys.map_cons (fun hchild => (ih' hchild).1) h,
        UnsetEmptied.map_cons (fun hchild => (ih' hchild).2) h⟩
    | nilMap => exact ⟨UnsetKeys.nilMap h, UnsetEmptied.nilMap h⟩
    | list elems => exact ⟨UnsetKeys.list h, UnsetEmptied.list h⟩

/-- What a successful unset leaves at one level for a path `acc₂ :: rest₂` read there, seen
from the level above: the level written back reads the path as the old one did, and a level
removed from its parent held no data for it. -/
structure UnsetFrame (done : List Accessor) (acc₂ : Accessor) (rest₂ : List Accessor)
    (level : Level) (r : Option Json) : Prop where
  written : ∀ raw, r = some raw → ∃ level', decodeLevel raw = some level' ∧
    getLevel done acc₂ rest₂ level' = getLevel done acc₂ rest₂ level
  removed : r = none → getLevel done acc₂ rest₂ level = .error .noDataError

namespace UnsetFrame

variable {done : List Accessor} {k₂ : String} {rest₂ : List Accessor}

theorem of_map {members members' : List (String × Json)} {r : Option Json}
    (heq : getLevel done (.key k₂) rest₂ (.map members') = getLevel done (.key k₂) rest₂ (.map members))
    (hnone : r = none → members' = []) (hsome : ∀ raw, r = some raw → raw = .obj members') :
    UnsetFrame done (.key k₂) rest₂ (.map members) r := by
  refine ⟨fun raw hraw => ⟨.map members', by rw [hsome raw hraw]; rfl, heq⟩, fun hr => ?_⟩
  rw [← heq, hnone hr, getLevel_key_map, AssocList.find_nil]

theorem of_ne {k : String} {rest : List Accessor} {level level' : Level} {r : Option Json}
    (h : unsetLevel done (.key k) rest level = (level', .ok r)) (hk : k ≠ k₂) :
    UnsetFrame done (.key k₂) rest₂ level r := by
  cases level with
  | list elems =>
    rw [unsetLevel_key_list] at h
    cases h
  | nilMap =>
    rw [unsetLevel_key_nilMap] at h
    obtain ⟨-, hr⟩ := Prod.mk.inj h
    refine ⟨fun raw hraw => ⟨.nilMap, ?_, rfl⟩, fun _ => getLevel_key_nilMap _ _ _⟩
    cases rest <;> cases hr <;> cases hraw
    rfl
  | map members =>
    obtain ⟨members', rfl, hnone, hsome, hfind⟩ := unsetLevel_key_map_find_of_ne h hk
    exact of_map (by rw [getLevel_key_map, getLevel_key_map, hfind]) hnone hsome

/-- The unset goes on below member `k` of a map, along the path: what the level below leaves
for the rest of the path, it leaves for the whole path here. -/
theorem lift {k : String} {acc' : Accessor} {rest' : List Accessor} {level level' : Level}
    {r : Option Json}
    (ih : ∀ {next : Level} {r' : Option Json},
      (unsetLevel (done ++ [.key k]) acc' rest' next).2 = .ok r' →
        UnsetFrame (done ++ [.key k]) acc₂ rest₂ next r')
    (h : unsetLevel done (.key k) (acc' :: rest') level = (level', .ok r)) :
    UnsetFrame done (.key k) (acc₂ :: rest₂) level r := by
  cases level with
  | list elems =>
    rw [unsetLevel_key_list] at h
    cases h
  | nilMap =>
    rw [unsetLevel_key_nilMap] at h
    obtain ⟨-, hr⟩ := Prod.mk.inj h
    cases hr
    exact ⟨fun _ h => (nomatch h), fun _ => getLevel_key_nilMap _ _ _⟩
  | map members =>
    obtain ⟨members', rfl, hr, hcase⟩ := unsetLevel_key_map_cons h
    obtain ⟨hnone, hsome⟩ := mapResult_cases hr
    refine of_map ?_ hnone fun raw h => (hsome raw h).1
    rw [getLevel_key_map, getLevel_key_map]
    rcases hcase with ⟨-, rfl⟩ | ⟨raw, next, _ | u, hfind, hdec, hchild, rfl⟩
    · rfl
    · -- the member is removed, and the level below held no data for the path
      rw [AssocList.find_erase_self, hfind]
      simp only
      rw [getRest_cons_of_decode hdec, (ih hchild).removed rfl]
    · -- the member is written back, and reads the path as before
      obtain ⟨next', hdec', hget⟩ := (ih hchild).written u rfl
      rw [AssocList.find_insert_self, hfind]
      simp only
      rw [getRest_cons_of_decode hdec', getRest_cons_of_decode hdec, hget]

end UnsetFrame

/-- An unset along map keys `c` and then key `k` leaves every path along `c` and then another
key `k₂` reading as before, whatever follows `k` and `k₂`: by induction over `c`. -/
theorem unsetLevel_frame {k k₂ : String} (hk : k ≠ k₂) (pr qr : List Accessor) :
    ∀ (c : List Accessor), KeysOnly c → ∀ {done : List Accessor} {j : String}
      {level level' : Level} {r : Option Json},
      unsetLevel done (.key j) (c ++ .key k :: pr) level = (level', .ok r) →
        UnsetFrame done (.key j) (c ++ .key k₂ :: qr) level r := by
  intro c
  induction c with
  | nil =>
    intro _ done j level level' r h
    exact UnsetFrame.lift (fun hchild => UnsetFrame.of_ne (Prod.ext rfl hchild) hk) h
  | cons a c ih =>
    intro hkeys done j level level' r h
    obtain ⟨i, rfl⟩ := hkeys a List.mem_cons_self
    exact UnsetFrame.lift (fun hchild => ih hkeys.tail (Prod.ext rfl hchild)) h

/-- The map `unset` leaves at the top reads a path that parts from the unset one at a map key
as the old one did. -/
theorem UnsetFrame.top {k k₂ : String} {rest rest₂ : List Accessor} {s s' : JSONDatabag}
    {r : Option Json} (hu : unsetLevel [] (.key k) rest (.map s) = (.map s', .ok r))
    (hframe : UnsetFrame [] (.key k₂) rest₂ (.map s) r) :
    getLevel [] (.key k₂) rest₂ (.map s') = getLevel [] (.key k₂) rest₂ (.map s) := by
  obtain ⟨members', hl, hnone, hsome⟩ := unsetLevel_key_map_result hu
  cases hl
  cases r with
  | none => rw [hframe.removed rfl, hnone rfl, getLevel_key_map, AssocList.find_nil]
  | some raw =>
    obtain ⟨level', hdec, hget⟩ := hframe.written raw rfl
    rw [hsome raw rfl] at hdec
    cases hdec
    exact hget

theorem JSONDatabag.set_eq_ok {s s' : JSONDatabag} {p : List Accessor} {value : Json}
    (hv : value ≠ .null) (h : s.set p value = (s', .ok ())) :
    ∃ acc rest, p = acc :: rest ∧ setLevel [] acc value rest (.map s) = .ok (.map s') := by
  unfold JSONDatabag.set at h
  rw [if_neg hv] at h
  match p, h with
  | [], h => cases h
  | acc :: rest, h =>
    cases hset : setLevel [] acc value rest (.map s) with
    | error e => simp [hset] at h
    | ok level' =>
      obtain ⟨members', rfl⟩ := setLevel_map_ok hset
      simp only [hset, Prod.mk.injEq] at h
      rw [← h.1]
      exact ⟨acc, rest, rfl, hset⟩

/-- A successful `Unset` of a path that starts with a map key left the top-level map as `unset`
changed it. -/
theorem JSONDatabag.unset_key_eq_ok {s s' : JSONDatabag} {k : String} {rest : List Accessor}
    (h : s.unset (.key k :: rest) = (s', .ok ())) :
    ∃ r, unsetLevel [] (.key k) rest (.map s) = (.map s', .ok r) := by
  rcases hu : unsetLevel [] (.key k) rest (.map s) with ⟨level', res⟩
  simp only [JSONDatabag.unset, hu] at h
  cases res with
  | error e => cases h
  | ok r =>
    obtain ⟨members', rfl, -, -⟩ := unsetLevel_key_map_result hu
    obtain ⟨rfl, -⟩ := Prod.mk.inj h
    exact ⟨r, rfl⟩

/-- The map `unset` leaves at the top, read as the bag: no data at the path, and what every
diverging concrete path read before. -/
theorem UnsetKeys.top {k : String} {rest : List Accessor} {s s' : JSONDatabag} {r : Option Json}
    (hu : unsetLevel [] (.key k) rest (.map s) = (.map s', .ok r))
    (hspec : UnsetKeys [] k rest (.map s) r) :
    getLevel [] (.key k) rest (.map s') = .error .noDataError ∧
    ∀ acc₂ rest₂ w, Concrete (acc₂ :: rest₂) → Diverge (.key k :: rest) (acc₂ :: rest₂) →
      (getLevel [] acc₂ rest₂ (.map s') = .ok w ↔ getLevel [] acc₂ rest₂ (.map s) = .ok w) := by
  obtain ⟨members', hl, hnone, hsome⟩ := unsetLevel_key_map_result hu
  cases hl
  cases r with
  | none =>
    rw [hnone rfl]
    refine ⟨by rw [getLevel_key_map, AssocList.find_nil], fun acc₂ rest₂ w hq hdiv => ?_⟩
    refine iff_of_false (fun hget => ?_) (hspec.removed rfl _ _ _ hq hdiv)
    obtain ⟨_, _, -, hfind, -⟩ := getLevel_map_ok hq hget
    cases hfind
  | some raw =>
    obtain ⟨level', hdec, hget, hframe⟩ := hspec.written raw rfl
    rw [hsome raw rfl] at hdec
    cases hdec
    exact ⟨hget, hframe⟩

/-- The map `unset` leaves at the top, read as the bag: a map along the path reads empty only
if it read empty before. -/
theorem UnsetEmptied.top {k : String} {rest : List Accessor} {s s' : JSONDatabag}
    {r : Option Json} (hu : unsetLevel [] (.key k) rest (.map s) = (.map s', .ok r))
    (hspec : UnsetEmptied [] k rest (.map s) r) (hkeys : DistinctAlong [] k rest (.map s))
    {r' : List Accessor} (hr' : r' <+: rest) (hne : r' ≠ rest)
    (hget : getLevel [] (.key k) r' (.map s') = .ok (.obj [])) :
    getLevel [] (.key k) r' (.map s) = .ok (.obj []) := by
  obtain ⟨members', hl, hnone, hsome⟩ := unsetLevel_key_map_result hu
  cases hl
  cases r with
  | none =>
    rw [hnone rfl, getLevel_key_map, AssocList.find_nil] at hget
    cases hget
  | some raw => exact hspec.along hkeys raw (.map s') rfl (by rw [hsome raw rfl]; rfl) r' hr' hne hget

theorem JSONDatabag.set_null (s : JSONDatabag) (p : List Accessor) : s.set p .null = s.unset p :=
  if_pos rfl

/-- The path laws of every bag: `Set` of a value other than `nil` reads back the value without
its `nil` members and keeps the value of every diverging concrete path. `Unset` of a key path
(or `Set` of `nil` there) leaves no data at the path, keeps the value of every diverging concrete
path, and empties no map on the path that was not empty, when those maps have distinct keys.
`Unset` of any path keeps the result of every path that parts from it at a map key after map
keys only. -/
theorem databag_path_laws (s : JSONDatabag) (p : List Accessor) :
    (∀ value s', value ≠ .null → s.set p value = (s', .ok ()) →
      s'.get p = .ok (removeNilValues value) ∧
      ∀ q w, Concrete q → Diverge p q → (s'.get q = .ok w ↔ s.get q = .ok w)) ∧
    (∀ s', (s.unset p = (s', .ok ()) ∨ s.set p .null = (s', .ok ())) →
      (KeysOnly p →
        s'.get p = .error .noDataError ∧
        (∀ q w, Concrete q → Diverge p q → (s'.get q = .ok w ↔ s.get q = .ok w)) ∧
        ((∀ r ms, r <+: p → r ≠ p → s.get r = .ok (.obj ms) → (ms.map Prod.fst).Nodup) →
          ∀ r, r <+: p → r ≠ [] → r ≠ p → s'.get r = .ok (.obj []) → s.get r = .ok (.obj []))) ∧
      ∀ c k k₂ pr qr, p = c ++ .key k :: pr → KeysOnly c → k ≠ k₂ →
        s'.get (c ++ .key k₂ :: qr) = s.get (c ++ .key k₂ :: qr)) := by
  refine ⟨fun value s' hv h => ?_, fun s' h => ?_⟩
  · obtain ⟨acc, rest, rfl, hset⟩ := JSONDatabag.set_eq_ok hv h
    refine ⟨get_setLevel rest hset, fun q w hq hdiv => ?_⟩
    match q, hq, hdiv with
    | [], _, hdiv => exact absurd List.nil_prefix hdiv.2
    | acc₂ :: rest₂, hq, hdiv => exact getLevel_setLevel_frame rest hset hq hdiv
  rw [JSONDatabag.set_null, or_self] at h
  refine ⟨fun hp => ?_, fun c k k₂ pr qr hpc hc hk => ?_⟩
  · match p, hp, h with
    | [], _, h => cases h
    | a :: rest, hp, h =>
      obtain ⟨k, rfl⟩ := hp a List.mem_cons_self
      obtain ⟨r, hu⟩ := JSONDatabag.unset_key_eq_ok h
      obtain ⟨hkeys, hempty⟩ := unsetLevel_keys rest hp.tail hu
      obtain ⟨hget, hframe⟩ := UnsetKeys.top hu hkeys
      refine ⟨hget, fun q w hq hdiv => ?_, fun hdistinct r hr hnil hne => ?_⟩
      · match q, hq, hdiv with
        | [], _, hdiv => exact absurd List.nil_prefix hdiv.2
        | acc₂ :: rest₂, hq, hdiv => exact hframe acc₂ rest₂ w hq hdiv
      · -- a map on the path is read below the first key
        obtain ⟨r', rfl, hr'⟩ := (List.prefix_cons_iff.mp hr).resolve_left hnil
        have hne' : r' ≠ rest := fun h => hne (by rw [h])
        refine UnsetEmptied.top hu hempty (fun r₂ ms hr₂ hne₂ hget₂ => ?_) hr' hne'
        exact hdistinct (.key k :: r₂) ms (List.cons_prefix_cons.mpr ⟨rfl, hr₂⟩)
          (fun h => hne₂ (List.cons.inj h).2) hget₂
  · -- the read parts from the unset at the first key, or after the first key of `c`
    subst hpc
    cases c with
    | nil =>
      obtain ⟨r, hu⟩ := JSONDatabag.unset_key_eq_ok h
      exact UnsetFrame.top hu (UnsetFrame.of_ne hu hk)
    | cons a c =>
      obtain ⟨j, rfl⟩ := hc a List.mem_cons_self
      obtain ⟨r, hu⟩ := JSONDatabag.unset_key_eq_ok h
      exact UnsetFrame.top hu (unsetLevel_frame hk pr qr c hc.tail hu)

/-- The bag holding `{"a": {"b": 2, "c": 3}}`. -/
def memberBag : JSONDatabag := [("a", .obj [("b", .num 2), ("c", .num 3)])]

/-- The laws at `Set("a.b", 1)` and `Unset("a.b")` on `memberBag`, read at `a`, `a.b` and
`a.c`. -/
theorem memberBag_path_laws :
    (memberBag.set [.key "a", .key "b"] (.num 1)).1.get [.key "a", .key "b"] = .ok (.num 1) ∧
    ((memberBag.set [.key "a", .key "b"] (.num 1)).1.get [.key "a", .key "c"] = .ok (.num 3) ↔
      memberBag.get [.key "a", .key "c"] = .ok (.num 3)) ∧
    (memberBag.unset [.key "a", .key "b"]).1.get [.key "a", .key "b"] = .error .noDataError ∧
    ((memberBag.unset [.key "a", .key "b"]).1.get [.key "a", .key "c"] = .ok (.num 3) ↔
      memberBag.get [.key "a", .key "c"] = .ok (.num 3)) ∧
    ((memberBag.unset [.key "a", .key "b"]).1.get [.key "a"] = .ok (.obj []) →
      memberBag.get [.key "a"] = .ok (.obj [])) ∧
    (memberBag.unset [.key "a", .key "b"]).1.get [.key "a", .key "c"] =
      memberBag.get [.key "a", .key "c"] := by
  have hq : Concrete [.key "a", .key "c"] := by simp [Concrete]
  have hdiv : Diverge [.key "a", .key "b"] [.key "a", .key "c"] := by
    unfold Diverge
    decide
  have hdistinct : ∀ r ms, r <+: [.key "a", .key "b"] → r ≠ [.key "a", .key "b"] →
      memberBag.get r = .ok (.obj ms) → (ms.map Prod.fst).Nodup := by
    intro r ms hr hne hget
    rcases List.prefix_cons_iff.mp hr with rfl | ⟨t, rfl, ht⟩
    · simp [JSONDatabag.get] at hget
    rcases List.prefix_cons_iff.mp ht with rfl | ⟨t', rfl, ht'⟩
    · have ha : memberBag.get [.key "a"] = .ok (.obj [("b", .num 2), ("c", .num 3)]) := by
        decide +kernel
      rw [ha] at hget
      cases hget
      decide
    · rw [List.prefix_nil.mp ht'] at hne
      exact absurd rfl hne
  have hset := (databag_path_laws memberBag [.key "a", .key "b"]).1 (.num 1) _ (by decide)
    (Prod.ext rfl (by decide +kernel))
  obtain ⟨hkeys, hframe⟩ := (databag_path_laws memberBag [.key "a", .key "b"]).2 _
    (.inl (Prod.ext rfl (by decide +kernel)))
  obtain ⟨hget, hfr, hempty⟩ := hkeys (by simp [KeysOnly])
  exact ⟨hset.1, hset.2 _ _ hq hdiv, hget, hfr _ _ hq hdiv,
    hempty hdistinct [.key "a"] (by simp) (by simp) (by simp),
    hframe [.key "a"] "b" "c" [] [] rfl (by simp [KeysOnly]) (by decide)⟩

/-! ## Where the laws stop

A path through a container that `Set` creates reads no data before the write and an error
after it; `Unset` of a list element shifts the elements after it down; and a map emptied by
`Unset` inside a list element is removed with the element, so a sibling path reads the next
element. A map that was empty before stays on the path when it holds the last key. -/

/-- The bag after `Set("a.b.c", 1)`. -/
def nestedBag : JSONDatabag := (newJSONDatabag.set [.key "a", .key "b", .key "c"] (.num 1)).1

/-- The bag after `Set("a", [1, 2])`. -/
def pairBag : JSONDatabag := (newJSONDatabag.set [.key "a"] (.arr [.num 1, .num 2])).1

/-- The bag after `Set("a", [{"b": 1}, {"c": 2}])`. -/
def objectsBag : JSONDatabag :=
  (newJSONDatabag.set [.key "a"] (.arr [.obj [("b", .num 1)], .obj [("c", .num 2)]])).1

/-- The bag after `Set("a", {})`. -/
def emptyMapBag : JSONDatabag := (newJSONDatabag.set [.key "a"] (.obj [])).1

theorem set_frame_and_unset_laws_fail :
    newJSONDatabag.get [.key "a", .index 0] = .error .noDataError ∧
    (newJSONDatabag.set [.key "a", .key "b", .key "c"] (.num 1)).2 = .ok () ∧
    nestedBag.get [.key "a", .index 0] = .error (cannotAccessMap (.index 0) [.key "a"]) ∧
    (newJSONDatabag.set [.key "a"] (.arr [.num 1, .num 2])).2 = .ok () ∧
    (pairBag.unset [.key "a", .index 0]).2 = .ok () ∧
    (pairBag.unset [.key "a", .index 0]).1.get [.key "a", .index 0] = .ok (.num 2) ∧
    (newJSONDatabag.set [.key "a"] (.arr [.obj [("b", .num 1)], .obj [("c", .num 2)]])).2 = .ok () ∧
    objectsBag.get [.key "a", .index 0, .key "c"] = .error .noDataError ∧
    (objectsBag.unset [.key "a", .index 0, .key "b"]).2 = .ok () ∧
    (objectsBag.unset [.key "a", .index 0, .key "b"]).1.get [.key "a", .index 0, .key "c"] =
      .ok (.num 2) ∧
    (newJSONDatabag.set [.key "a"] (.obj [])).2 = .ok () ∧
    (emptyMapBag.unset [.key "a", .key "b"]).2 = .ok () ∧
    (emptyMapBag.unset [.key "a", .key "b"]).1.get [.key "a"] = .ok (.obj []) := by
  decide +kernel

/-! ## Placeholder reads

Under a key placeholder `getMap` skips every member whose read fails, whatever the error; under
an index placeholder `getList` skips elements that are not containers, keeps those with no data
as `nil`, and fails on any other error. A read through a member of the wrong kind is such an
error: the map level drops it, the list level fails on it. -/

/-- The bag `{"x": {"c": 1}, "y": [5]}`. -/
def mixedBag : JSONDatabag := [("x", .obj [("c", .num 1)]), ("y", .arr [.num 5])]

/-- The bag `{"a": [{"c": 1}, [5]]}`. -/
def mixedListBag : JSONDatabag := [("a", .arr [.obj [("c", .num 1)], .arr [.num 5]])]

theorem placeholder_errors_differ_by_level :
    mixedBag.get [.key "x", .key "c"] = .ok (.num 1) ∧
    mixedBag.get [.key "y", .key "c"] = .error (cannotIndexList (.key "c") [.key "y"]) ∧
    mixedBag.get [.keyPlaceholder "k", .key "c"] = .ok (.obj [("x", .num 1)]) ∧
    mixedListBag.get [.key "a", .index 0, .key "c"] = .ok (.num 1) ∧
    mixedListBag.get [.key "a", .index 1, .key "c"] =
      .error (cannotIndexList (.key "c") [.key "a", .index 1]) ∧
    mixedListBag.get [.key "a", .indexPlaceholder "n", .key "c"] =
      .error (cannotIndexList (.key "c") [.key "a", .indexPlaceholder "n"]) := by
  decide +kernel

end Snapd.Confdb
