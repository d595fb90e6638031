import Snapd.Lib.AssocList
import Mathlib.Data.List.Sort

/-! The in-memory JSON databag of confdb (`confdb/confdb.go`): `JSONDatabag.Get`, `Set` and
`Unset` over a path of accessors.

The bag is a map from keys to raw JSON. Each level below it is kept encoded and decoded again
on the way down by `unmarshalLevel`; the `json.RawMessage` bytes are modelled by the JSON value
they encode, so decoding a written level gives it back. A decoded object is a Go map and an
array a slice; `null` decodes into a nil map, which can be read but not written. The top-level
map is changed in place, every level below it is a copy that its parent writes back only once
the call below it has returned. -/

namespace Snapd.Confdb

/-- A JSON value, as `encoding/json` writes and reads it; an object keeps its members in the
order they were set. -/
inductive Json where
  | null
  | bool (b : Bool)
  | num (n : Int)
  | str (s : String)
  | arr (elems : List Json)
  | obj (members : List (String × Json))
  deriving Repr

namespace Json

mutual
/-- Structural equality of JSON values. -/
def beq : Json → Json → Bool
  | .null, .null => true
  | .bool a, .bool b => a == b
  | .num a, .num b => a == b
  | .str a, .str b => a == b
  | .arr as, .arr bs => beqList as bs
  | .obj as, .obj bs => beqMembers as bs
  | _, _ => false
def beqList : List Json → List Json → Bool
  | [], [] => true
  | a :: as, b :: bs => beq a b && beqList as bs
  | _, _ => false
def beqMembers : List (String × Json) → List (String × Json) → Bool
  | [], [] => true
  | (k, a) :: as, (l, b) :: bs => k == l && beq a b && beqMembers as bs
  | _, _ => false
end

mutual
theorem beq_iff : (a b : Json) → beq a b = true ↔ a = b
  | .arr as, .arr bs => by simp [beq, beqList_iff as bs]
  | .obj as, .obj bs => by simp [beq, beqMembers_iff as bs]
  | .null, b | .bool _, b | .num _, b | .str _, b => by cases b <;> simp [beq]
  | .arr _, .null | .arr _, .bool _ | .arr _, .num _ | .arr _, .str _ | .arr _, .obj _
  | .obj _, .null | .obj _, .bool _ | .obj _, .num _ | .obj _, .str _ | .obj _, .arr _ => by
    simp [beq]
theorem beqList_iff : (as bs : List Json) → beqList as bs = true ↔ as = bs
  | [], [] => by simp [beqList]
  | a :: as, b :: bs => by simp [beqList, beq_iff a b, beqList_iff as bs]
  | [], _ :: _ | _ :: _, [] => by simp [beqList]
theorem beqMembers_iff : (as bs : List (String × Json)) → beqMembers as bs = true ↔ as = bs
  | [], [] => by simp [beqMembers]
  | (k, a) :: as, (l, b) :: bs => by
    simp [beqMembers, beq_iff a b, beqMembers_iff as bs, and_assoc]
  | [], _ :: _ | _ :: _, [] => by simp [beqMembers]
end

instance : DecidableEq Json := fun a b => decidable_of_iff _ (beq_iff a b)

/-- The JSON type a decoding error names (`json.UnmarshalTypeError.Value`). -/
def typeName : Json → String
  | .null => "null"
  | .bool _ => "bool"
  | .num _ => "number"
  | .str _ => "string"
  | .arr _ => "array"
  | .obj _ => "object"

mutual
/-- The bytes `json.Marshal` writes, up to layout: every object's members sorted by key. -/
def sorted : Json → Json
  | .arr elems => .arr (sortedList elems)
  | .obj members => .obj ((sortedMembers members).insertionSort fun a b => a.1 ≤ b.1)
  | v => v
def sortedList : List Json → List Json
  | [] => []
  | v :: vs => sorted v :: sortedList vs
def sortedMembers : List (String × Json) → List (String × Json)
  | [] => []
  | (k, v) :: ms => (k, sorted v) :: sortedMembers ms
end

end Json

/-- A parsed accessor (`key`, `index`, `keyPlaceholder`, `indexPlaceholder`). An index is kept
as the number `strconv.Atoi` reads from its digits. Field filters are left out: they are only
read against the constraints of `Get`, which the databag's callers here pass as `nil`. -/
inductive Accessor where
  | key (value : String)
  | index (value : Nat)
  | keyPlaceholder (value : String)
  | indexPlaceholder (value : String)
  deriving DecidableEq, Repr

/-- `Access`: how the accessor is written in a path. -/
def Accessor.access : Accessor → String
  | .key value => value
  | .index value => "[" ++ toString value ++ "]"
  | .keyPlaceholder value => "\x7b" ++ value ++ "\x7d"
  | .indexPlaceholder value => "[\x7b" ++ value ++ "\x7d]"

/-- `dotPrecedesAccessorType` -/
def Accessor.dotPrecedes : Accessor → Bool
  | .index _ | .indexPlaceholder _ => false
  | _ => true

def joinAccessors (parts : List Accessor) : String :=
  String.join (parts.mapIdx fun i part =>
    (if part.dotPrecedes && i != 0 then "." else "") ++ part.access)

/-- Go's `%q` of a string without quotes, backslashes or control characters. -/
def quote (s : String) : String := "\"" ++ s ++ "\""

/-- What a databag call ends with besides a value: the `NoDataError` the bag returns, a
`noContainerError`, another error, or a run-time panic of Go. -/
inductive Fault where
  | noDataError
  | noContainerError (path actualType : String)
  | otherError (msg : String)
  | panic (msg : String)
  deriving DecidableEq, Repr

/-- A decoded level: a map, the nil map that `null` decodes to, or a list. -/
inductive Level where
  | map (members : List (String × Json))
  | nilMap
  | list (elems : List Json)
  deriving DecidableEq, Repr

/-- `json.Marshal` of a level; a nil map is written as `null`. -/
def Level.toJson : Level → Json
  | .map members => .obj members
  | .nilMap => .null
  | .list elems => .arr elems

/-- The members of a map level; a nil map, read, has none. -/
def Level.members : Level → List (String × Json)
  | .map members => members
  | .nilMap => []
  | .list _ => []

/-- Decoding raw JSON into a map, else into a list. -/
def decodeLevel : Json → Option Level
  | .obj members => some (.map members)
  | .null => some .nilMap
  | .arr elems => some (.list elems)
  | _ => none

/-- `unmarshalLevel`, with `path` the accessors up to the level (`accessors[:index+1]`). -/
def unmarshalLevel (path : List Accessor) (raw : Json) : Except Fault Level :=
  match decodeLevel raw with
  | some level => .ok level
  | none => .error (.noContainerError (joinAccessors path) raw.typeName)

/-- `emptyContainerForType`: the level a path expects after `acc`. -/
def emptyContainerForType : Accessor → Level
  | .key _ | .keyPlaceholder _ => .map []
  | _ => .list []

mutual
/-- `removeNilValues`: members set to `nil` are dropped from maps, and from maps nested in
maps; lists are left as they are. -/
def removeNilValues : Json → Json
  | .obj members => .obj (removeNilMembers members)
  | v => v
def removeNilMembers : List (String × Json) → List (String × Json)
  | [] => []
  | (k, v) :: ms => if v = .null then removeNilMembers ms else (k, removeNilValues v) :: removeNilMembers ms
end

/-- The panic of a write into a nil map. -/
def nilMapPanic : Fault := .panic "assignment to entry in nil map"

def cannotAccessMap (acc : Accessor) (done : List Accessor) : Fault :=
  .otherError ("cannot use " ++ quote acc.access ++ " to access map at path " ++ quote (joinAccessors done))

def cannotIndexList (acc : Accessor) (done : List Accessor) : Fault :=
  .otherError ("cannot use " ++ quote acc.access ++ " to index list at path " ++ quote (joinAccessors done))

/-- `list[i] = x`, or `append(list, x)` when `i` is the length. -/
def putElem (elems : List Json) (i : Nat) (x : Json) : List Json :=
  if i = elems.length then elems ++ [x] else elems.set i x

/-- The loop of `getList` over the elements under an index placeholder: an element that is
not a container is skipped, one with no data is kept as `nil` to hold the order, and any other
error ends the loop. The flag says whether some element had data. -/
def collectElems : List (Option (Except Fault Json)) → Except Fault (List Json × Bool)
  | [] => .ok ([], false)
  | none :: rs => collectElems rs
  | some (.error .noDataError) :: rs => (collectElems rs).map fun r => (.null :: r.1, r.2)
  | some (.error e) :: _ => .error e
  | some (.ok v) :: rs => (collectElems rs).map fun r => (v :: r.1, true)

/-- `get`, `getMap` and `getList` at accessor `acc`, with `done` the accessors before it (the
path prefix the errors print) and `rest` those after it. `Get`'s constraints are `nil`, so no
entry is filtered out. -/
def getLevel (done : List Accessor) (acc : Accessor) : List Accessor → Level → Except Fault Json
  | rest, .list elems =>
    match acc with
    | .index i =>
      match elems[i]? with
      | none => .error .noDataError
      | some raw =>
        match rest with
        | [] => .ok raw
        | acc' :: rest' =>
          match unmarshalLevel (done ++ [acc]) raw with
          | .error e => .error e
          | .ok next => getLevel (done ++ [acc]) acc' rest' next
    | .indexPlaceholder _ =>
      match rest with
      | [] => if elems = [] then .error .noDataError else .ok (.arr elems)
      | acc' :: rest' =>
        let results := elems.map fun el =>
          match unmarshalLevel (done ++ [acc, acc']) el with
          | .error _ => none
          | .ok next => some (getLevel (done ++ [acc]) acc' rest' next)
        match collectElems results with
        | .error e => .error e
        | .ok (vs, hasData) => if hasData then .ok (.arr vs) else .error .noDataError
    | _ => .error (cannotIndexList acc done)
  | rest, level =>
    -- a map level; reading a nil map finds no member
    let members := level.members
    match acc with
    | .key name =>
      match AssocList.find members name with
      | none => .error .noDataError
      | some raw =>
        match rest with
        | [] => .ok raw
        | acc' :: rest' =>
          match unmarshalLevel (done ++ [acc]) raw with
          | .error e => .error e
          | .ok next => getLevel (done ++ [acc]) acc' rest' next
    | .keyPlaceholder _ =>
      match rest with
      | [] => if members = [] then .error .noDataError else .ok (.obj members)
      | acc' :: rest' =>
        -- entries that are not containers, have no data or fail are all skipped
        let results := members.filterMap fun e =>
          match unmarshalLevel (done ++ [acc]) e.2 with
          | .error _ => none
          | .ok next =>
            match getLevel (done ++ [acc]) acc' rest' next with
            | .ok res => if res = .null then none else some (e.1, res)
            | .error _ => none
        if results = [] then .error .noDataError else .ok (.obj results)
    | _ => .error (cannotAccessMap acc done)

/-- What `get` does with the raw value an accessor found: return it at the end of the path,
else decode it and go on from the next accessor. -/
def getRest (path : List Accessor) : List Accessor → Json → Except Fault Json
  | [], raw => .ok raw
  | acc' :: rest', raw =>
    match unmarshalLevel path raw with
    | .error e => .error e
    | .ok next => getLevel path acc' rest' next

-- the lemmas below unfold `getLevel`, `setLevel` and `unsetLevel` by their equations, which
-- the simp set of this module holds
attribute [local simp] getLevel

theorem getLevel_key_map (done : List Accessor) (k : String) (rest : List Accessor)
    (members : List (String × Json)) :
    getLevel done (.key k) rest (.map members) =
      match AssocList.find members k with
      | none => .error .noDataError
      | some raw => getRest (done ++ [.key k]) rest raw := by
  rw [getLevel]
  · simp only [Level.members]
    cases AssocList.find members k <;> cases rest <;> rfl
  · nofun

theorem getLevel_key_nilMap (done : List Accessor) (k : String) (rest : List Accessor) :
    getLevel done (.key k) rest .nilMap = .error .noDataError := by
  rw [getLevel]
  · rfl
  · nofun

theorem getLevel_index_list (done : List Accessor) (i : Nat) (rest : List Accessor)
    (elems : List Json) :
    getLevel done (.index i) rest (.list elems) =
      match elems[i]? with
      | none => .error .noDataError
      | some raw => getRest (done ++ [.index i]) rest raw := by
  rw [getLevel]
  cases elems[i]? <;> cases rest <;> rfl

theorem getLevel_index_map (done : List Accessor) (i : Nat) (rest : List Accessor)
    (members : List (String × Json)) :
    getLevel done (.index i) rest (.map members) = .error (cannotAccessMap (.index i) done) := by
  rw [getLevel]
  all_goals nofun

theorem getLevel_index_nilMap (done : List Accessor) (i : Nat) (rest : List Accessor) :
    getLevel done (.index i) rest .nilMap = .error (cannotAccessMap (.index i) done) := by
  rw [getLevel]
  all_goals nofun

theorem getLevel_key_list (done : List Accessor) (k : String) (rest : List Accessor)
    (elems : List Json) :
    getLevel done (.key k) rest (.list elems) = .error (cannotIndexList (.key k) done) := by
  rw [getLevel]
  all_goals nofun

/-- The level `setMap` and `setList` write into: the existing value decoded, or an empty
container of the kind `acc'` expects when there is none or it is not a container. -/
def levelForWrite (path : List Accessor) (acc' : Accessor) : Option Json → Level
  | some raw =>
    match unmarshalLevel path raw with
    | .ok level => level
    | .error _ => emptyContainerForType acc'
  | none => emptyContainerForType acc'

/-- `set`, `setMap` and `setList` at accessor `acc`: the level after the write, which the
caller encodes. -/
def setLevel (done : List Accessor) (acc : Accessor) (value : Json) :
    List Accessor → Level → Except Fault Level
  | rest, .list elems =>
    match acc with
    | .index i =>
      -- the index may be the length, to append
      if elems.length < i then
        .error (.otherError ("cannot access " ++ quote (joinAccessors (done ++ [acc])) ++
          ": list has length " ++ toString elems.length))
      else
        match rest with
        | [] => .ok (.list (putElem elems i (removeNilValues value)))
        | acc' :: rest' =>
          match setLevel (done ++ [acc]) acc' value rest' (levelForWrite (done ++ [acc, acc']) acc' elems[i]?) with
          | .error e => .error e
          | .ok next' => .ok (.list (putElem elems i next'.toJson))
    | _ => .error (cannotIndexList acc done)
  | rest, level =>
    let members := level.members
    match acc with
    | .key name =>
      match rest with
      | [] =>
        match level with
        | .nilMap => .error nilMapPanic
        | _ => .ok (.map (AssocList.insert members name (removeNilValues value)))
      | acc' :: rest' =>
        match setLevel (done ++ [acc]) acc' value rest'
            (levelForWrite (done ++ [acc, acc']) acc' (AssocList.find members name)) with
        | .error e => .error e
        | .ok next' =>
          match level with
          | .nilMap => .error nilMapPanic
          | _ => .ok (.map (AssocList.insert members name next'.toJson))
    | _ => .error (cannotAccessMap acc done)

attribute [local simp] setLevel

/-- What a successful `set` did at one level: the accessor and the level agree in kind, and
the member or element it names was written, with the value at the end of the path and with
the level below, set in turn, before it. -/
theorem setLevel_eq_ok {done : List Accessor} {acc : Accessor} {value : Json}
    {rest : List Accessor} {level level' : Level} (h : setLevel done acc value rest level = .ok level') :
    (∃ k members, acc = .key k ∧ level = .map members ∧
      ((rest = [] ∧ level' = .map (AssocList.insert members k (removeNilValues value))) ∨
        ∃ acc' rest' next', rest = acc' :: rest' ∧
          setLevel (done ++ [.key k]) acc' value rest'
            (levelForWrite (done ++ [.key k, acc']) acc' (AssocList.find members k)) = .ok next' ∧
          level' = .map (AssocList.insert members k next'.toJson))) ∨
    (∃ i elems, acc = .index i ∧ level = .list elems ∧ i ≤ elems.length ∧
      ((rest = [] ∧ level' = .list (putElem elems i (removeNilValues value))) ∨
        ∃ acc' rest' next', rest = acc' :: rest' ∧
          setLevel (done ++ [.index i]) acc' value rest'
            (levelForWrite (done ++ [.index i, acc']) acc' elems[i]?) = .ok next' ∧
          level' = .list (putElem elems i next'.toJson))) := by
  cases acc with
  | index i =>
    cases level with
    | list elems =>
      right
      unfold setLevel at h
      simp only at h
      split at h
      · cases h
      · refine ⟨i, elems, rfl, rfl, by omega, ?_⟩
        cases rest with
        | nil =>
          cases h
          exact .inl ⟨rfl, rfl⟩
        | cons acc' rest' =>
          simp only at h
          split at h
          · cases h
          · rename_i next' hnext
            cases h
            exact .inr ⟨acc', rest', next', rfl, hnext, rfl⟩
    | map _ | nilMap => simp at h
  | key k =>
    cases level with
    | map members =>
      left
      refine ⟨k, members, rfl, rfl, ?_⟩
      cases rest with
      | nil =>
        simp only [setLevel] at h
        cases h
        exact .inl ⟨rfl, rfl⟩
      | cons acc' rest' =>
        simp only [setLevel, Level.members] at h
        split at h
        · cases h
        · rename_i next' hnext
          cases h
          exact .inr ⟨acc', rest', next', rfl, hnext, rfl⟩
    | nilMap =>
      -- writing into the nil map panics
      cases rest with
      | nil => simp at h
      | cons acc' rest' =>
        simp only [setLevel] at h
        split at h <;> cases h
    | list _ => simp at h
  | keyPlaceholder _ | indexPlaceholder _ => cases level <;> simp at h

/-- The `range` loop of `unsetMap` over the keys under a key placeholder, stopping at the
first error; the map is changed in place as it goes. -/
def unsetKeys (unsetKey : List (String × Json) → String → List (String × Json) × Except Fault Unit) :
    List String → List (String × Json) → List (String × Json) × Except Fault Unit
  | [], members => (members, .ok ())
  | k :: ks, members =>
    match unsetKey members k with
    | (members', .error e) => (members', .error e)
    | (members', .ok ()) => unsetKeys unsetKey ks members'

/-- The loop of `unsetList` under an index placeholder: removed elements are dropped, the
first error ends it. -/
def unsetElems (unsetIndex : Json → Except Fault (Option Json)) :
    List Json → Except Fault (List Json)
  | [] => .ok []
  | el :: els =>
    match unsetIndex el with
    | .error e => .error e
    | .ok none => unsetElems unsetIndex els
    | .ok (some u) => (unsetElems unsetIndex els).map (u :: ·)

/-- `unsetList`'s result: `nil` for an emptied list. -/
def listResult (elems : List Json) : Except Fault (Option Json) :=
  if elems = [] then .ok none else .ok (some (.arr elems))

/-- `unset`, `unsetMap` and `unsetList` at accessor `acc`: the level as it is left (the top
level is changed in place, also when an error ends the call) and the result, `nil` when the
level is to be removed from its parent. -/
def unsetLevel (done : List Accessor) (acc : Accessor) :
    List Accessor → Level → Level × Except Fault (Option Json)
  | rest, .list elems =>
    match acc with
    | .index i =>
      match rest with
      | [] =>
        let elems' := if i < elems.length then elems.eraseIdx i else elems
        (.list elems', listResult elems')
      | acc' :: rest' =>
        if elems.length ≤ i then (.list elems, .ok (some (.arr elems)))
        else
          match elems[i]? with
          | none => (.list elems, .ok (some (.arr elems)))
          | some el =>
            match unmarshalLevel (done ++ [acc, acc']) el with
            | .error e => (.list elems, .error e)
            | .ok next =>
              match (unsetLevel (done ++ [acc]) acc' rest' next).2 with
              | .error e => (.list elems, .error e)
              | .ok none => (.list (elems.eraseIdx i), listResult (elems.eraseIdx i))
              | .ok (some u) => (.list (elems.set i u), listResult (elems.set i u))
    | .indexPlaceholder _ =>
      match rest with
      | [] => (.list elems, .ok none)
      | acc' :: rest' =>
        let unsetIndex := fun el =>
          match unmarshalLevel (done ++ [acc, acc']) el with
          | .error e => .error e
          | .ok next => (unsetLevel (done ++ [acc]) acc' rest' next).2
        match unsetElems unsetIndex elems with
        | .error e => (.list elems, .error e)
        | .ok elems' => (.list elems', listResult elems')
    | _ => (.list elems, .error (cannotIndexList acc done))
  | rest, .nilMap =>
    -- a nil map has no member to remove and is written as `null`
    match acc with
    | .key _ =>
      match rest with
      | [] => (.nilMap, .ok (some .null))
      | _ :: _ => (.nilMap, .ok none)
    | .keyPlaceholder _ => (.nilMap, .ok none)
    | _ => (.nilMap, .error (cannotAccessMap acc done))
  | rest, .map members =>
    match acc with
    | .key _ | .keyPlaceholder _ =>
      match rest with
      | [] =>
        match acc with
        | .key name =>
          if members.length = 1 ∧ (AssocList.find members name).isSome then (.map [], .ok none)
          else
            let members' := AssocList.erase members name
            (.map members', .ok (some (.obj members')))
        | _ => (.map [], .ok none)
      | acc' :: rest' =>
        let unsetKey := fun (level : List (String × Json)) (k : String) =>
          match AssocList.find level k with
          | none => (level, .ok ())
          | some raw =>
            match unmarshalLevel (done ++ [acc, acc']) raw with
            | .error e => (level, .error e)
            | .ok next =>
              match (unsetLevel (done ++ [acc]) acc' rest' next).2 with
              | .error e => (level, .error e)
              | .ok none => (AssocList.erase level k, .ok ())
              | .ok (some updated) => (AssocList.insert level k updated, .ok ())
        let r := match acc with
          | .key name => unsetKey members name
          | _ => unsetKeys unsetKey (members.map Prod.fst) members
        match r.2 with
        | .error e => (.map r.1, .error e)
        | .ok () => (.map r.1, if r.1 = [] then .ok none else .ok (some (.obj r.1)))
    | _ => (.map members, .error (cannotAccessMap acc done))

attribute [local simp] unsetLevel

theorem unsetLevel_key_list (done : List Accessor) (k : String) (rest : List Accessor)
    (elems : List Json) :
    unsetLevel done (.key k) rest (.list elems) = (.list elems, .error (cannotIndexList (.key k) done)) := by
  unfold unsetLevel
  rfl

theorem unsetLevel_key_nilMap (done : List Accessor) (k : String) (rest : List Accessor) :
    unsetLevel done (.key k) rest .nilMap = (.nilMap, .ok (if rest = [] then some .null else none)) := by
  unfold unsetLevel
  cases rest <;> rfl

theorem unsetLevel_key_map_nil (done : List Accessor) (k : String) (members : List (String × Json)) :
    unsetLevel done (.key k) [] (.map members) =
      if members.length = 1 ∧ (AssocList.find members k).isSome then (.map [], .ok none)
      else (.map (AssocList.erase members k), .ok (some (.obj (AssocList.erase members k)))) := by
  unfold unsetLevel
  rfl

/-- What a successful `unset` below a map member did: the member is looked up, decoded and
unset in turn, then removed or written back; the map is removed from its parent once empty. -/
theorem unsetLevel_key_map_cons {done : List Accessor} {k : String} {acc' : Accessor}
    {rest' : List Accessor} {members : List (String × Json)} {level' : Level}
    {r : Option Json} (h : unsetLevel done (.key k) (acc' :: rest') (.map members) = (level', .ok r)) :
    ∃ members', level' = .map members' ∧
      r = (if members' = [] then none else some (.obj members')) ∧
      ((AssocList.find members k = none ∧ members' = members) ∨
        ∃ raw next r', AssocList.find members k = some raw ∧ decodeLevel raw = some next ∧
          (unsetLevel (done ++ [.key k]) acc' rest' next).2 = .ok r' ∧
          members' = match r' with
            | none => AssocList.erase members k
            | some u => AssocList.insert members k u) := by
  have close : ∀ members', (Level.map members',
      (if members' = [] then (.ok none : Except Fault (Option Json)) else .ok (some (.obj members')))) =
        (level', .ok r) →
      level' = .map members' ∧ r = (if members' = [] then none else some (.obj members')) := by
    intro members' heq
    obtain ⟨rfl, hr⟩ := Prod.mk.inj heq
    refine ⟨rfl, ?_⟩
    split at hr <;> (cases hr; simp_all)
  unfold unsetLevel at h
  simp only at h
  cases hfind : AssocList.find members k with
  | none =>
    simp only [hfind] at h
    obtain ⟨h1, h2⟩ := close members h
    exact ⟨members, h1, h2, .inl ⟨rfl, rfl⟩⟩
  | some raw =>
    simp only [hfind, unmarshalLevel] at h
    cases hdec : decodeLevel raw with
    | none => simp [hdec] at h
    | some next =>
      simp only [hdec] at h
      cases hchild : (unsetLevel (done ++ [.key k]) acc' rest' next).2 with
      | error e => simp [hchild] at h
      | ok r' =>
        cases r' with
        | none =>
          simp only [hchild] at h
          obtain ⟨h1, h2⟩ := close _ h
          exact ⟨_, h1, h2, .inr ⟨raw, next, none, rfl, hdec, hchild, rfl⟩⟩
        | some u =>
          simp only [hchild] at h
          obtain ⟨h1, h2⟩ := close _ h
          exact ⟨_, h1, h2, .inr ⟨raw, next, some u, rfl, hdec, hchild, rfl⟩⟩

/-- `JSONDatabag`: the top-level map. -/
abbrev JSONDatabag := List (String × Json)

def newJSONDatabag : JSONDatabag := []

/-- The error for a path with no accessor, which the source indexes out of range. -/
def emptyPathPanic : Fault := .panic "index out of range [0] with length 0"

/-- `JSONDatabag.Get` with `nil` constraints. -/
def JSONDatabag.get (s : JSONDatabag) : List Accessor → Except Fault Json
  | [] => .error emptyPathPanic
  | acc :: rest => getLevel [] acc rest (.map s)

/-- `JSONDatabag.Unset`: the bag as the call leaves it, and the error it returns. -/
def JSONDatabag.unset (s : JSONDatabag) : List Accessor → JSONDatabag × Except Fault Unit
  | [] => (s, .error emptyPathPanic)
  | acc :: rest =>
    let r := unsetLevel [] acc rest (.map s)
    let s' := match r.1 with
      | .map members => members
      | _ => s
    (s', r.2.map fun _ => ())

/-- `JSONDatabag.Set`: a `nil` value unsets the path. -/
def JSONDatabag.set (s : JSONDatabag) (accessors : List Accessor) (value : Json) :
    JSONDatabag × Except Fault Unit :=
  if value = .null then s.unset accessors
  else
    match accessors with
    | [] => (s, .error emptyPathPanic)
    | acc :: rest =>
      match setLevel [] acc value rest (.map s) with
      | .ok (.map members) => (members, .ok ())
      | .ok _ => (s, .ok ())
      | .error e => (s, .error e)

/-- `JSONDatabag.Data`: the top-level map as `json.Marshal` writes it. -/
def JSONDatabag.data (s : JSONDatabag) : Json := (Json.obj s).sorted

/-! ## A stored `nil`, and a partial unset

`removeNilValues` does not look into lists, so `Set` stores a list holding `null`. Decoding that
element for a later write gives a nil map, not `nil`, so no empty container replaces it and
the write into it panics. And `unsetMap` changes the top-level map in place member by member
under a key placeholder: a member that is not a container fails the call after the members
before it were already removed. -/

/-- The bag after `Set("x", [nil])`. -/
def nullElementBag : JSONDatabag := (newJSONDatabag.set [.key "x"] (.arr [.null])).1

/-- The bag after `Set("a", {"c": 1})` and `Set("b", "s")`. -/
def siblingsBag : JSONDatabag :=
  ((newJSONDatabag.set [.key "a"] (.obj [("c", .num 1)])).1.set [.key "b"] (.str "s")).1

theorem null_element_write_panics_and_unset_is_partial :
    (newJSONDatabag.set [.key "x"] (.arr [.null])).2 = .ok () ∧
    (nullElementBag.set [.key "x", .index 0, .key "b"] (.num 1)).2 = .error nilMapPanic ∧
    (newJSONDatabag.set [.key "a"] (.obj [("c", .num 1)])).2 = .ok () ∧
    ((newJSONDatabag.set [.key "a"] (.obj [("c", .num 1)])).1.set [.key "b"] (.str "s")).2 = .ok () ∧
    (siblingsBag.unset [.keyPlaceholder "x", .key "c"]).2 =
      .error (.noContainerError "\x7bx\x7d.c" "string") ∧
    (siblingsBag.unset [.keyPlaceholder "x", .key "c"]).1.data ≠ siblingsBag.data := by
  decide +kernel

end Snapd.Confdb
