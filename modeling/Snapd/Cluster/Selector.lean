import Snapd.Cluster.IntSet
import Snapd.Lib.AssocList

/-! The route selector of an assembly session (cluster/assemblestate/selector.go). Device tokens,
edges and addresses are interned by three `Bimap`s; `knownByPeers` holds, for each peer, the
edges it is known to know, `edgeSources` how many peers know each edge, and `verifiedEdges` the
edges whose two devices are identified. `identified` is the caller's knowledge of identities,
which changes over time, so it is an argument of the calls that read it; the random generator is
not read by the calls modelled here.

A `Bimap` is modelled by its values alone: `Add` appends a value not yet present, so the index
map of the source is the position of the value, and `Value` is read past the end only by edges
that do not exist. -/

namespace Snapd.Cluster

/-- `bimap.Bimap`: the values in insertion order; the index of a value is its position. -/
structure Bimap (V : Type) where
  values : List V
  deriving DecidableEq, Repr

namespace Bimap

variable {V : Type} [DecidableEq V]

def indexOf (bm : Bimap V) (v : V) : Option Nat := bm.values.idxOf? v

/-- `Add`: the index of `v`, appended if it is new. -/
def add (bm : Bimap V) (v : V) : Bimap V × Nat :=
  match bm.indexOf v with
  | some idx => (bm, idx)
  | none => (⟨bm.values ++ [v]⟩, bm.values.length)

def value [Inhabited V] (bm : Bimap V) (i : Nat) : V := bm.values.getD i default

theorem lt_length_of_indexOf {bm : Bimap V} {v : V} {i : Nat} (h : bm.indexOf v = some i) :
    i < bm.values.length :=
  (List.idxOf?_eq_some_iff.mp h).1

theorem getD_of_indexOf {bm : Bimap V} {v : V} {i : Nat} (h : bm.indexOf v = some i) (d : V) :
    bm.values.getD i d = v := by
  obtain ⟨hi, hv, -⟩ := List.idxOf?_eq_some_iff.mp h
  rw [List.getD_eq_getElem _ _ hi, hv]

theorem prefix_add (bm : Bimap V) (v : V) : bm.values <+: (bm.add v).1.values := by
  rw [add]
  split
  · exact List.prefix_refl _
  · exact List.prefix_append _ _

theorem lt_length_add (bm : Bimap V) (v : V) : (bm.add v).2 < (bm.add v).1.values.length := by
  rw [add]
  split
  · rename_i idx h
    exact lt_length_of_indexOf h
  · simp

theorem getD_add (bm : Bimap V) (v d : V) : (bm.add v).1.values.getD (bm.add v).2 d = v := by
  rw [add]
  split
  · rename_i idx h
    exact getD_of_indexOf h d
  · simp

end Bimap

/-- `edge`: the peers a route goes from (`src`) and to (`dst`), and the address it uses. -/
structure Edge where
  src : Nat
  dst : Nat
  via : Nat
  deriving DecidableEq, Repr, Inhabited

/-- `Routes`: the devices and addresses of a message, and triplets of indexes into them. -/
structure Routes where
  devices : List (List Char)
  addresses : List (List Char)
  routes : List Int
  deriving DecidableEq, Repr

structure PrioritySelector where
  self : List Char
  rdts : Bimap (List Char)
  edges : Bimap Edge
  addresses : Bimap (List Char)
  knownByPeers : List IntSet
  edgeSources : Nat → Nat
  verifiedEdges : IntSet
  authoritative : List (List Char × Nat)

/-- What `Select` hands back besides the routes: its `ack` closure is the peer the routes go to
and the edges it was sent. -/
structure Ack where
  peer : Nat
  edges : List Nat
  deriving DecidableEq, Repr

namespace PrioritySelector

/-- `NewPrioritySelector` -/
def new (self : List Char) : PrioritySelector :=
  ⟨self, ⟨[]⟩, ⟨[]⟩, ⟨[]⟩, [], fun _ => 0, ⟨[]⟩, []⟩

/-- `p.knownByPeers[pid]` -/
def known (p : PrioritySelector) (pid : Nat) : IntSet := p.knownByPeers.getD pid ⟨[]⟩

/-- `peerID`: a new device gets the next index and an empty set of known edges. -/
def peerID (p : PrioritySelector) (rdt : List Char) : PrioritySelector × Nat :=
  match p.rdts.indexOf rdt with
  | some pid => (p, pid)
  | none =>
    ({ p with rdts := (p.rdts.add rdt).1, knownByPeers := p.knownByPeers ++ [⟨[]⟩] },
      (p.rdts.add rdt).2)

def addrID (p : PrioritySelector) (a : List Char) : PrioritySelector × Nat :=
  ({ p with addresses := (p.addresses.add a).1 }, (p.addresses.add a).2)

/-- `edgeID`: the edge's index, and whether it existed. -/
def edgeID (p : PrioritySelector) (e : Edge) : PrioritySelector × Nat × Bool :=
  match p.edges.indexOf e with
  | some eid => (p, eid, true)
  | none => ({ p with edges := (p.edges.add e).1 }, (p.edges.add e).2, false)

/-- `AddAuthoritativeRoute(to, via)`, `to` named `dest`. -/
def addAuthoritativeRoute (p : PrioritySelector) (dest via : List Char) : PrioritySelector :=
  let src := p.peerID p.self
  let dst := src.1.peerID dest
  let addr := dst.1.addrID via
  let e := addr.1.edgeID ⟨src.2, dst.2, addr.2⟩
  { e.1 with authoritative := AssocList.insert e.1.authoritative dest e.2.1 }

/-- The loop body of `RecordRoutes` for the peer `pid` after the edge `eid` was interned: a
source more for the edge if the peer did not know it, the peer knows it now, and it is
verified when both its devices are identified. -/
def recordEdge (p : PrioritySelector) (pid eid : Nat) (identifiedBoth : Bool) : PrioritySelector :=
  let p := if !(p.known pid).contains eid then
      { p with edgeSources := Function.update p.edgeSources eid (p.edgeSources eid + 1) }
    else p
  let p := { p with knownByPeers := p.knownByPeers.set pid ((p.known pid).add eid) }
  if identifiedBoth then { p with verifiedEdges := p.verifiedEdges.add eid } else p

/-- One triplet `i, j, k` of `RecordRoutes` from the peer `pid`: the selector after it and
whether its edge is new, or the error that stops the loop. -/
def recordRoute (p : PrioritySelector) (identified : List Char → Bool) (r : Routes) (pid : Nat)
    (i j k : Int) : Except String (PrioritySelector × Bool) :=
  if i < 0 ∨ j < 0 ∨ k < 0 then .error "route contains negative index"
  else if i ≥ r.devices.length ∨ j ≥ r.devices.length ∨ k ≥ r.addresses.length then
    .error "route index exceeds available devices or addresses"
  else
    let fromRDT := r.devices.getD i.toNat []
    let toRDT := r.devices.getD j.toNat []
    let src := p.peerID fromRDT
    let dst := src.1.peerID toRDT
    let addr := dst.1.addrID (r.addresses.getD k.toNat [])
    let e := addr.1.edgeID ⟨src.2, dst.2, addr.2⟩
    .ok (e.1.recordEdge pid e.2.1 (identified fromRDT && identified toRDT), e.2.2)

/-- The loop of `RecordRoutes` over the triplets, counting the new edges in `added`. On an error
the selector keeps what the earlier triplets did. -/
def recordLoop (identified : List Char → Bool) (r : Routes) (pid : Nat) :
    PrioritySelector → Nat → List Int → PrioritySelector × Except String Nat
  | p, added, i :: j :: k :: rest =>
    match p.recordRoute identified r pid i j k with
    | .error e => (p, .error e)
    | .ok (p', existed) => recordLoop identified r pid p' (if existed then added else added + 1) rest
  | p, added, _ => (p, .ok added)

/-- `RecordRoutes`: the selector after the call, and the new edges and all edges, or the error. -/
def recordRoutes (p : PrioritySelector) (identified : List Char → Bool) (source : List Char)
    (r : Routes) : PrioritySelector × Except String (Nat × Nat) :=
  let src := p.peerID source
  if r.routes.length % 3 ≠ 0 then (src.1, .error "length of routes list must be a multiple of three")
  else
    match recordLoop identified r src.2 src.1 0 r.routes with
    | (p', .error e) => (p', .error e)
    | (p', .ok added) => (p', .ok (added, p'.edges.values.length))

def verifyRoutes (p : PrioritySelector) (identified : List Char → Bool) : PrioritySelector :=
  p.edges.values.zipIdx.foldl (fun p x =>
    if identified (p.rdts.value x.1.src) && identified (p.rdts.value x.1.dst) then
      { p with verifiedEdges := p.verifiedEdges.add x.2 }
    else p) p

/-- One edge of `edgesToRoutes`: its devices and address interned in the message's tables, and
its triplet of indexes appended. -/
def routeStep (p : PrioritySelector) (acc : Bimap (List Char) × Bimap (List Char) × List Int)
    (eid : Nat) : Bimap (List Char) × Bimap (List Char) × List Int :=
  let edge := p.edges.value eid
  let src := acc.1.add (p.rdts.value edge.src)
  let dst := src.1.add (p.rdts.value edge.dst)
  let addr := acc.2.1.add (p.addresses.value edge.via)
  (dst.1, addr.1, acc.2.2 ++ [(src.2 : Int), (dst.2 : Int), (addr.2 : Int)])

def edgesToRoutes (p : PrioritySelector) (edges : List Nat) : Routes :=
  let acc := edges.foldl p.routeStep (⟨[]⟩, ⟨[]⟩, [])
  ⟨acc.1.values, acc.2.1.values, acc.2.2⟩

/-- `Select(to, n)`, `to` named `dest`, with `sortSlice` the order `sort.Slice` leaves the
unknown edges in: `none` when nothing is to be sent. A negative `n` would make the slice
expression panic; counts are naturals here. -/
def select (p : PrioritySelector) (dest : List Char) (n : Nat)
    (sortSlice : List Nat → List Nat) : Option (Routes × Ack) :=
  match p.rdts.indexOf dest with
  | none => none
  | some selected =>
    if dest = p.self then none
    else
      let peerKnown := p.known selected
      let unknown := p.verifiedEdges.diff peerKnown
      -- only consider routes that we don't think that this peer knows about
      let edgesToSend := sortSlice (unknown.range fun _ => true)
      let edgesToSend := edgesToSend.take (min edgesToSend.length n)
      let edgesToSend :=
        match AssocList.find p.authoritative dest with
        | some eid => if !peerKnown.contains eid then edgesToSend ++ [eid] else edgesToSend
        | none => edgesToSend
      if edgesToSend.length = 0 then none
      else some (p.edgesToRoutes edgesToSend, ⟨selected, edgesToSend⟩)

/-- One edge of the `ack` closure: counted as a source and recorded, unless the peer has
learnt it since the selection. -/
def ackEdge (pid : Nat) (p : PrioritySelector) (eid : Nat) : PrioritySelector :=
  if !(p.known pid).contains eid then
    { p with knownByPeers := p.knownByPeers.set pid ((p.known pid).add eid),
             edgeSources := Function.update p.edgeSources eid (p.edgeSources eid + 1) }
  else p

/-- The `ack` closure `Select` returns, called on the selector as it is when it is called. -/
def ack (p : PrioritySelector) (a : Ack) : PrioritySelector := a.edges.foldl (ackEdge a.peer) p

def complete (p : PrioritySelector) (size : Nat) : Except String Bool :=
  let complete := size * (size - 1)
  let current := p.verifiedEdges.count
  if complete = current then .ok true
  else if complete > current then .ok false
  else .error "number of devices in the cluster is greater than expected"

section Interning

variable (p : PrioritySelector)

/-- The edges peer `pid` knows, read as `knownByPeers[pid]`; a new peer's empty set is what a
missing one reads as. -/
theorem known_peerID (rdt : List Char) (pid : Nat) : (p.peerID rdt).1.known pid = p.known pid := by
  rw [peerID]
  split
  · rfl
  · simp only [known]
    by_cases hlt : pid < p.knownByPeers.length
    · exact List.getD_append _ _ _ _ hlt
    · rw [List.getD_append_right _ _ _ _ (by omega), List.getD_eq_default p.knownByPeers _ (by omega)]
      by_cases heq : pid - p.knownByPeers.length = 0
      · rw [heq]
        rfl
      · exact List.getD_eq_default _ _ (by simp; omega)

theorem peerID_frame (rdt : List Char) :
    (p.peerID rdt).1.edgeSources = p.edgeSources ∧ (p.peerID rdt).1.verifiedEdges = p.verifiedEdges ∧
      (p.peerID rdt).1.edges = p.edges ∧ (p.peerID rdt).1.addresses = p.addresses ∧
      (p.peerID rdt).1.authoritative = p.authoritative ∧ (p.peerID rdt).1.self = p.self := by
  rw [peerID]
  split <;> exact ⟨rfl, rfl, rfl, rfl, rfl, rfl⟩

theorem peerID_knownByPeers (rdt : List Char) :
    ((p.peerID rdt).1.knownByPeers = p.knownByPeers ∧ (p.peerID rdt).1.rdts = p.rdts) ∨
      ((p.peerID rdt).1.knownByPeers = p.knownByPeers ++ [⟨[]⟩] ∧
        (p.peerID rdt).1.rdts.values.length = p.rdts.values.length + 1) := by
  rw [peerID]
  split
  · exact .inl ⟨rfl, rfl⟩
  · rename_i h
    right
    refine ⟨rfl, ?_⟩
    simp [Bimap.add, h]

theorem lt_length_peerID (rdt : List Char) :
    (p.peerID rdt).2 < (p.peerID rdt).1.rdts.values.length := by
  rw [peerID]
  split
  · rename_i pid h
    exact Bimap.lt_length_of_indexOf h
  · exact Bimap.lt_length_add _ _

theorem addrID_frame (a : List Char) :
    (p.addrID a).1 = { p with addresses := (p.addresses.add a).1 } := rfl

theorem edgeID_frame (e : Edge) :
    (p.edgeID e).1 = p ∨ (p.edgeID e).1 = { p with edges := (p.edges.add e).1 } := by
  rw [edgeID]
  split
  · exact .inl rfl
  · exact .inr rfl

end Interning

section Learning

variable (p : PrioritySelector) (pid eid : Nat)

theorem recordEdge_fields (b : Bool) :
    (p.recordEdge pid eid b).knownByPeers = p.knownByPeers.set pid ((p.known pid).add eid) ∧
      (p.recordEdge pid eid b).rdts = p.rdts ∧
      (p.recordEdge pid eid b).edgeSources = if (p.known pid).contains eid then p.edgeSources
        else Function.update p.edgeSources eid (p.edgeSources eid + 1) := by
  unfold recordEdge
  cases hk : (p.known pid).contains eid <;> cases b <;> exact ⟨rfl, rfl, rfl⟩

theorem ackEdge_of_contains (h : (p.known pid).contains eid = true) : ackEdge pid p eid = p := by
  simp [ackEdge, h]

theorem ackEdge_fields (h : (p.known pid).contains eid = false) :
    (ackEdge pid p eid).knownByPeers = p.knownByPeers.set pid ((p.known pid).add eid) ∧
      (ackEdge pid p eid).rdts = p.rdts ∧
      (ackEdge pid p eid).edgeSources = if (p.known pid).contains eid then p.edgeSources
        else Function.update p.edgeSources eid (p.edgeSources eid + 1) := by
  unfold ackEdge
  rw [h]
  exact ⟨rfl, rfl, rfl⟩

end Learning

end PrioritySelector

end Snapd.Cluster
