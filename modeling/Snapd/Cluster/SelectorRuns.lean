import Mathlib.Logic.Relation
import Snapd.Cluster.Selector

/-! The selector over whole runs: any interleaving of `AddAuthoritativeRoute`, `RecordRoutes`
from any peer, `VerifyRoutes`, `Select`, and calls of the `ack` closures handed out so far, each
as often as the caller likes. `edgeSources` is kept equal to the number of peers known to know
each edge: `RecordRoutes` and `ack` both count a peer only when it did not know the edge yet. -/

namespace Snapd.Cluster

namespace PrioritySelector

/-- The number of peers that know the edge `e`. -/
def knownCount (p : PrioritySelector) (e : Nat) : Nat := p.knownByPeers.countP fun s => s.contains e

/-- The bookkeeping of `edgeSources`: one set of known edges per device, and each edge counted
once for every peer that knows it. -/
structure Counted (p : PrioritySelector) : Prop where
  peers : p.knownByPeers.length = p.rdts.values.length
  sources : ∀ e, p.edgeSources e = p.knownCount e

theorem countP_set_add {l : List IntSet} {pid : Nat} (hpid : pid < l.length) (eid e : Nat) :
    (l.set pid ((l.getD pid ⟨[]⟩).add eid)).countP (fun s => s.contains e) =
      if e = eid ∧ (l.getD pid ⟨[]⟩).contains eid = false then l.countP (fun s => s.contains e) + 1
      else l.countP (fun s => s.contains e) := by
  have hget : l.getD pid ⟨[]⟩ = l[pid] := List.getD_eq_getElem _ _ hpid
  have hpos : l[pid].contains e = true → 0 < l.countP (fun s => s.contains e) := fun h =>
    List.countP_pos_iff.mpr ⟨l[pid], List.getElem_mem hpid, h⟩
  rw [List.countP_set hpid, hget, IntSet.contains_add]
  by_cases he : e = eid
  · subst he
    cases hc : l[pid].contains e with
    | false => simp
    | true =>
      have := hpos hc
      simp
      omega
  · cases hc : l[pid].contains e with
    | false => simp [he]
    | true =>
      have := hpos hc
      simp [he]
      omega

section Counting

variable {p : PrioritySelector}

theorem knownCount_learn {pid : Nat} (hpid : pid < p.knownByPeers.length) (eid e : Nat)
    {q : PrioritySelector} (hk : q.knownByPeers = p.knownByPeers.set pid ((p.known pid).add eid)) :
    q.knownCount e =
      if e = eid ∧ (p.known pid).contains eid = false then p.knownCount e + 1 else p.knownCount e := by
  rw [knownCount, hk]
  exact countP_set_add hpid eid e

/-- The peer `pid` learns the edge `eid`, counted as a source if it did not know it: what
`RecordRoutes` and `ack` both do. -/
theorem Counted.learn (hc : p.Counted) {pid : Nat} (hpid : pid < p.knownByPeers.length) (eid : Nat)
    {q : PrioritySelector} (hk : q.knownByPeers = p.knownByPeers.set pid ((p.known pid).add eid))
    (hr : q.rdts = p.rdts)
    (hs : q.edgeSources = if (p.known pid).contains eid then p.edgeSources
      else Function.update p.edgeSources eid (p.edgeSources eid + 1)) : q.Counted := by
  refine ⟨by rw [hk, hr, List.length_set, hc.peers], fun e => ?_⟩
  rw [hs, knownCount_learn hpid eid e hk]
  by_cases he : e = eid
  · subst he
    cases (p.known pid).contains e <;> simp [hc.sources]
  · cases (p.known pid).contains eid <;> simp [he, hc.sources]

theorem knownCount_peerID (rdt : List Char) (e : Nat) : (p.peerID rdt).1.knownCount e = p.knownCount e := by
  rcases p.peerID_knownByPeers rdt with ⟨h, -⟩ | ⟨h, -⟩
  · rw [knownCount, h]
    rfl
  · rw [knownCount, h, List.countP_append]
    simp [IntSet.contains, knownCount]

theorem Counted.peerID (hc : p.Counted) (rdt : List Char) : (p.peerID rdt).1.Counted := by
  obtain ⟨hsrc, -⟩ := p.peerID_frame rdt
  refine ⟨?_, fun e => by rw [hsrc, knownCount_peerID, hc.sources]⟩
  rcases p.peerID_knownByPeers rdt with ⟨h, hr⟩ | ⟨h, hr⟩
  · rw [h, hr, hc.peers]
  · rw [h, hr, List.length_append, hc.peers]
    rfl

theorem length_peerID (rdt : List Char) :
    p.knownByPeers.length ≤ (p.peerID rdt).1.knownByPeers.length := by
  rcases p.peerID_knownByPeers rdt with ⟨h, -⟩ | ⟨h, -⟩
  · rw [h]
  · rw [h, List.length_append]
    omega

theorem Counted.addrID (hc : p.Counted) (a : List Char) : (p.addrID a).1.Counted := by
  rw [addrID_frame]
  exact ⟨hc.peers, hc.sources⟩

theorem Counted.edgeID (hc : p.Counted) (e : Edge) : (p.edgeID e).1.Counted := by
  rcases p.edgeID_frame e with h | h
  · rw [h]
    exact hc
  · rw [h]
    exact ⟨hc.peers, hc.sources⟩

theorem length_edgeID (e : Edge) : (p.edgeID e).1.knownByPeers.length = p.knownByPeers.length := by
  rcases p.edgeID_frame e with h | h <;> rw [h]

theorem Counted.recordEdge (hc : p.Counted) {pid : Nat} (hpid : pid < p.knownByPeers.length)
    (eid : Nat) (b : Bool) : (p.recordEdge pid eid b).Counted :=
  let h := p.recordEdge_fields pid eid b
  hc.learn hpid eid h.1 h.2.1 h.2.2

theorem length_recordEdge (pid eid : Nat) (b : Bool) :
    (p.recordEdge pid eid b).knownByPeers.length = p.knownByPeers.length := by
  rw [(p.recordEdge_fields pid eid b).1, List.length_set]

theorem Counted.recordRoute (hc : p.Counted) {pid : Nat} (hpid : pid < p.knownByPeers.length)
    {identified : List Char → Bool} {r : Routes} {i j k : Int} {p' : PrioritySelector}
    {existed : Bool} (h : p.recordRoute identified r pid i j k = .ok (p', existed)) :
    p'.Counted ∧ p.knownByPeers.length ≤ p'.knownByPeers.length := by
  unfold PrioritySelector.recordRoute at h
  split at h
  · cases h
  split at h
  · cases h
  injection h with h
  injection h with h
  subst h
  -- intern the two devices, the address and the edge, then record the edge
  generalize hsrc : p.peerID (r.devices.getD i.toNat []) = src
  generalize hdst : src.1.peerID (r.devices.getD j.toNat []) = dst
  generalize haddr : dst.1.addrID (r.addresses.getD k.toNat []) = addr
  generalize he : addr.1.edgeID ⟨src.2, dst.2, addr.2⟩ = e
  have hsrcc : src.1.Counted := hsrc ▸ hc.peerID _
  have hdstc : dst.1.Counted := hdst ▸ hsrcc.peerID _
  have haddrc : addr.1.Counted := haddr ▸ hdstc.addrID _
  have hec : e.1.Counted := he ▸ haddrc.edgeID _
  have hlen : p.knownByPeers.length ≤ e.1.knownByPeers.length := by
    have h1 := hsrc ▸ length_peerID (p := p) (r.devices.getD i.toNat [])
    have h2 := hdst ▸ length_peerID (p := src.1) (r.devices.getD j.toNat [])
    have h3 : addr.1.knownByPeers.length = dst.1.knownByPeers.length := by rw [← haddr]; rfl
    have h4 := he ▸ length_edgeID (p := addr.1) ⟨src.2, dst.2, addr.2⟩
    omega
  exact ⟨hec.recordEdge (by omega) _ _, by rw [length_recordEdge]; exact hlen⟩

theorem Counted.recordLoop {identified : List Char → Bool} {r : Routes} {pid : Nat}
    (routes : List Int) (p : PrioritySelector) (added : Nat) :
    p.Counted ∧ pid < p.knownByPeers.length →
      (PrioritySelector.recordLoop identified r pid p added routes).1.Counted ∧
        p.knownByPeers.length ≤
          (PrioritySelector.recordLoop identified r pid p added routes).1.knownByPeers.length := by
  fun_induction PrioritySelector.recordLoop identified r pid p added routes with
  | case1 p added i j k rest e herr => exact fun hc => ⟨hc.1, le_refl _⟩
  | case2 p added i j k rest p' existed hok ih =>
    intro hc
    obtain ⟨hc', hlen⟩ := hc.1.recordRoute hc.2 hok
    obtain ⟨hc'', hlen'⟩ := ih ⟨hc', by omega⟩
    exact ⟨hc'', hlen.trans hlen'⟩
  | case3 => exact fun hc => ⟨hc.1, le_refl _⟩

theorem Counted.recordRoutes (hc : p.Counted) (identified : List Char → Bool) (source : List Char)
    (r : Routes) : (p.recordRoutes identified source r).1.Counted ∧
      p.knownByPeers.length ≤ (p.recordRoutes identified source r).1.knownByPeers.length := by
  have hsrc := hc.peerID source
  have hpid : (p.peerID source).2 < (p.peerID source).1.knownByPeers.length := by
    rw [hsrc.peers]
    exact p.lt_length_peerID source
  have hle := length_peerID (p := p) source
  have hloop := @Counted.recordLoop identified r _ r.routes _ 0 ⟨hsrc, hpid⟩
  unfold PrioritySelector.recordRoutes
  dsimp only
  split
  · exact ⟨hsrc, hle⟩
  · split
    · rename_i p' e hrec
      rw [hrec] at hloop
      exact ⟨hloop.1, hle.trans hloop.2⟩
    · rename_i p' added hrec
      rw [hrec] at hloop
      exact ⟨hloop.1, hle.trans hloop.2⟩

theorem verifyRoutes_frame (p : PrioritySelector) (identified : List Char → Bool) :
    ∃ v, p.verifyRoutes identified = { p with verifiedEdges := v } := by
  unfold PrioritySelector.verifyRoutes
  generalize p.edges.values.zipIdx = xs
  induction xs generalizing p with
  | nil => exact ⟨p.verifiedEdges, rfl⟩
  | cons x xs ih =>
    rw [List.foldl_cons]
    split
    · exact ih _
    · exact ih p

theorem Counted.verifyRoutes (hc : p.Counted) (identified : List Char → Bool) :
    (p.verifyRoutes identified).Counted := by
  obtain ⟨v, hv⟩ := p.verifyRoutes_frame identified
  rw [hv]
  exact ⟨hc.peers, hc.sources⟩

theorem length_verifyRoutes (identified : List Char → Bool) :
    (p.verifyRoutes identified).knownByPeers.length = p.knownByPeers.length := by
  obtain ⟨v, hv⟩ := p.verifyRoutes_frame identified
  rw [hv]

theorem Counted.addAuthoritativeRoute (hc : p.Counted) (dest via : List Char) :
    (p.addAuthoritativeRoute dest via).Counted ∧
      p.knownByPeers.length ≤ (p.addAuthoritativeRoute dest via).knownByPeers.length := by
  unfold PrioritySelector.addAuthoritativeRoute
  dsimp only
  generalize hsrc : p.peerID p.self = src
  generalize hdst : src.1.peerID dest = dst
  generalize haddr : dst.1.addrID via = addr
  generalize he : addr.1.edgeID ⟨src.2, dst.2, addr.2⟩ = e
  have hec : e.1.Counted :=
    he ▸ (haddr ▸ (hdst ▸ (hsrc ▸ hc.peerID _).peerID _).addrID _).edgeID _
  have h1 := hsrc ▸ length_peerID (p := p) p.self
  have h2 := hdst ▸ length_peerID (p := src.1) dest
  have h3 : addr.1.knownByPeers.length = dst.1.knownByPeers.length := by rw [← haddr]; rfl
  have h4 := he ▸ length_edgeID (p := addr.1) ⟨src.2, dst.2, addr.2⟩
  exact ⟨⟨hec.peers, hec.sources⟩, by omega⟩

theorem Counted.ackEdge (hc : p.Counted) {pid : Nat} (hpid : pid < p.knownByPeers.length)
    (eid : Nat) : (ackEdge pid p eid).Counted ∧
      (ackEdge pid p eid).knownByPeers.length = p.knownByPeers.length := by
  cases hk : (p.known pid).contains eid with
  | true =>
    rw [p.ackEdge_of_contains pid eid hk]
    exact ⟨hc, rfl⟩
  | false =>
    obtain ⟨h1, h2, h3⟩ := p.ackEdge_fields pid eid hk
    exact ⟨hc.learn hpid eid h1 h2 h3, by rw [h1, List.length_set]⟩

theorem Counted.ack (a : Ack) : ∀ p : PrioritySelector, p.Counted → a.peer < p.knownByPeers.length →
    (p.ack a).Counted ∧ (p.ack a).knownByPeers.length = p.knownByPeers.length := by
  unfold PrioritySelector.ack
  induction a.edges with
  | nil => exact fun p hc _ => ⟨hc, rfl⟩
  | cons eid edges ih =>
    intro p hc hpid
    obtain ⟨hc', hlen⟩ := hc.ackEdge hpid eid
    rw [List.foldl_cons]
    obtain ⟨hc'', hlen'⟩ := ih _ hc' (hlen ▸ hpid)
    exact ⟨hc'', hlen'.trans hlen⟩

end Counting

section Select

variable {p : PrioritySelector} {dest : List Char} {n : Nat} {sortSlice : List Nat → List Nat}
  {routes : Routes} {a : Ack}

/-- What `Select` returns: for the peer `dest`, at most `n` verified edges it is not known to
know, in the order `sort.Slice` left them, then maybe the authoritative edge to it. -/
theorem select_eq_some (h : p.select dest n sortSlice = some (routes, a)) :
    p.rdts.indexOf dest = some a.peer ∧ routes = p.edgesToRoutes a.edges ∧
      ∃ extra, a.edges = (sortSlice ((p.verifiedEdges.diff (p.known a.peer)).range fun _ => true)).take
          (min (sortSlice ((p.verifiedEdges.diff (p.known a.peer)).range fun _ => true)).length n) ++
            extra ∧
        (extra = [] ∨ ∃ eid, extra = [eid] ∧ AssocList.find p.authoritative dest = some eid ∧
          (p.known a.peer).contains eid = false) := by
  unfold PrioritySelector.select at h
  split at h
  · cases h
  rename_i selected hsel
  split at h
  · cases h
  dsimp only at h
  -- the authoritative edge is appended when the peer does not know it
  cases hauth : AssocList.find p.authoritative dest with
  | none =>
    simp only [hauth] at h
    split at h
    · cases h
    injection h with h
    injection h with hr ha
    subst hr ha
    exact ⟨hsel, rfl, [], by rw [List.append_nil], .inl rfl⟩
  | some eid =>
    simp only [hauth] at h
    cases hk : (p.known selected).contains eid with
    | true =>
      simp only [hk, Bool.not_true, Bool.false_eq_true, if_false] at h
      split at h
      · cases h
      injection h with h
      injection h with hr ha
      subst hr ha
      exact ⟨hsel, rfl, [], by rw [List.append_nil], .inl rfl⟩
    | false =>
      simp only [hk, Bool.not_false, if_true] at h
      split at h
      · cases h
      injection h with h
      injection h with hr ha
      subst hr ha
      exact ⟨hsel, rfl, [eid], rfl, .inr ⟨eid, rfl, rfl, hk⟩⟩

/-- The edges `Select` chose before the authoritative one: verified, not known by the peer, and
at most `n`. -/
theorem mem_chosen (hsort : ∀ l, (sortSlice l).Perm l) {pk : IntSet} {e : Nat}
    (he : e ∈ (sortSlice ((p.verifiedEdges.diff pk).range fun _ => true)).take
      (min (sortSlice ((p.verifiedEdges.diff pk).range fun _ => true)).length n)) :
    e ∈ p.verifiedEdges.members ∧ e ∉ pk.members := by
  have hmem := (hsort _).subset (List.mem_of_mem_take he)
  rw [← IntSet.all, IntSet.all_eq, ← List.mem_toFinset, ← IntSet.members, IntSet.members_diff] at hmem
  exact Finset.mem_sdiff.mp hmem

end Select

end PrioritySelector

/-- Triplet `t` of a routes message as `RecordRoutes` reads it: its two devices and its address. -/
def Routes.triple (r : Routes) (t : Nat) : List Char × List Char × List Char :=
  (r.devices.getD (r.routes.getD (3 * t) 0).toNat [],
    r.devices.getD (r.routes.getD (3 * t + 1) 0).toNat [],
    r.addresses.getD (r.routes.getD (3 * t + 2) 0).toNat [])

/-- The routes of a message, one for each triplet. -/
def Routes.triples (r : Routes) : List (List Char × List Char × List Char) :=
  (List.range (r.routes.length / 3)).map r.triple

namespace PrioritySelector

/-- An edge by the devices and the address it goes through. -/
def edgeNames (p : PrioritySelector) (eid : Nat) : List Char × List Char × List Char :=
  (p.rdts.value (p.edges.value eid).src, p.rdts.value (p.edges.value eid).dst,
    p.addresses.value (p.edges.value eid).via)

theorem getD_of_isPrefix {α : Type} {l l' : List α} (h : l <+: l') {i : Nat} (hi : i < l.length)
    (d : α) : l'.getD i d = l.getD i d := by
  obtain ⟨u, rfl⟩ := h
  exact List.getD_append _ _ _ _ hi

/-- The state of `edgesToRoutes` after the edges `es`: the tables of devices and addresses and
three indexes into them for each edge, which name the edge. -/
structure Encodes (p : PrioritySelector) (es : List Nat)
    (acc : Bimap (List Char) × Bimap (List Char) × List Int) : Prop where
  length : acc.2.2.length = 3 * es.length
  names : ∀ t (ht : t < es.length), Routes.triple ⟨acc.1.values, acc.2.1.values, acc.2.2⟩ t =
    p.edgeNames es[t]
  bounded : ∀ t < es.length, (acc.2.2.getD (3 * t) 0).toNat < acc.1.values.length ∧
    (acc.2.2.getD (3 * t + 1) 0).toNat < acc.1.values.length ∧
    (acc.2.2.getD (3 * t + 2) 0).toNat < acc.2.1.values.length

theorem Encodes.routeStep {p : PrioritySelector} {es : List Nat}
    {acc : Bimap (List Char) × Bimap (List Char) × List Int} (henc : Encodes p es acc) (eid : Nat) :
    Encodes p (es ++ [eid]) (p.routeStep acc eid) := by
  obtain ⟨devs, addrs, rs⟩ := acc
  set src := devs.add (p.rdts.value (p.edges.value eid).src) with hsrc
  set dst := src.1.add (p.rdts.value (p.edges.value eid).dst) with hdst
  set addr := addrs.add (p.addresses.value (p.edges.value eid).via) with haddr
  have hstep : p.routeStep (devs, addrs, rs) eid =
      (dst.1, addr.1, rs ++ [(src.2 : Int), (dst.2 : Int), (addr.2 : Int)]) := rfl
  have hdevs : devs.values <+: dst.1.values :=
    (Bimap.prefix_add devs _).trans (Bimap.prefix_add src.1 _)
  have hsrc1 : src.1.values <+: dst.1.values := Bimap.prefix_add src.1 _
  have haddrs : addrs.values <+: addr.1.values := Bimap.prefix_add addrs _
  have hlen_src : src.2 < src.1.values.length := Bimap.lt_length_add _ _
  have hlen_dst : dst.2 < dst.1.values.length := Bimap.lt_length_add _ _
  have hlen_addr : addr.2 < addr.1.values.length := Bimap.lt_length_add _ _
  have hpre_src := hsrc1.length_le
  have hold : ∀ i, i < 3 * es.length →
      (rs ++ [(src.2 : Int), (dst.2 : Int), (addr.2 : Int)]).getD i 0 = rs.getD i 0 :=
    fun i hi => List.getD_append _ _ _ _ (by rw [henc.length]; omega)
  have hnew : ∀ c, (rs ++ [(src.2 : Int), (dst.2 : Int), (addr.2 : Int)]).getD (3 * es.length + c) 0 =
      [(src.2 : Int), (dst.2 : Int), (addr.2 : Int)].getD c 0 := by
    intro c
    rw [List.getD_append_right _ _ _ _ (by rw [henc.length]; omega), henc.length, Nat.add_sub_cancel_left]
  rw [hstep]
  refine ⟨by simp [henc.length]; omega, ?_, ?_⟩
  · intro t ht
    rw [List.length_append, List.length_singleton] at ht
    by_cases hlt : t < es.length
    · -- an earlier edge: its indexes and the table entries they point at are unchanged
      obtain ⟨b0, b1, b2⟩ := henc.bounded t hlt
      rw [List.getElem_append_left hlt, ← henc.names t hlt]
      simp only [Routes.triple]
      rw [hold (3 * t) (by omega), hold (3 * t + 1) (by omega), hold (3 * t + 2) (by omega),
        getD_of_isPrefix hdevs b0, getD_of_isPrefix hdevs b1, getD_of_isPrefix haddrs b2]
    · have ht' : t = es.length := by omega
      subst ht'
      simp only [Routes.triple, List.getElem_append_right (Nat.le_refl _), Nat.sub_self,
        List.getElem_singleton]
      rw [show 3 * es.length = 3 * es.length + 0 by rfl, hnew 0, hnew 1, hnew 2]
      simp only [List.getD_cons_zero, List.getD_cons_succ, Int.toNat_natCast]
      rw [getD_of_isPrefix hsrc1 hlen_src, Bimap.getD_add, Bimap.getD_add, Bimap.getD_add]
      rfl
  · intro t ht
    rw [List.length_append, List.length_singleton] at ht
    by_cases hlt : t < es.length
    · obtain ⟨b0, b1, b2⟩ := henc.bounded t hlt
      dsimp only at b0 b1 b2 ⊢
      rw [hold (3 * t) (by omega), hold (3 * t + 1) (by omega), hold (3 * t + 2) (by omega)]
      exact ⟨by have := hdevs.length_le; omega, by have := hdevs.length_le; omega,
        by have := haddrs.length_le; omega⟩
    · have ht' : t = es.length := by omega
      subst ht'
      dsimp only
      rw [show 3 * es.length = 3 * es.length + 0 by rfl, hnew 0, hnew 1, hnew 2]
      simp only [List.getD_cons_zero, List.getD_cons_succ, Int.toNat_natCast]
      exact ⟨by omega, hlen_dst, hlen_addr⟩

theorem encodes_foldl (p : PrioritySelector) :
    ∀ (edges es : List Nat) (acc : Bimap (List Char) × Bimap (List Char) × List Int),
      Encodes p es acc → Encodes p (es ++ edges) (edges.foldl p.routeStep acc) := by
  intro edges
  induction edges with
  | nil => intro es acc h; simpa using h
  | cons eid edges ih =>
    intro es acc h
    rw [List.foldl_cons, show es ++ eid :: edges = (es ++ [eid]) ++ edges by simp]
    exact ih _ _ (h.routeStep eid)

theorem triples_edgesToRoutes (p : PrioritySelector) (edges : List Nat) :
    (p.edgesToRoutes edges).triples = edges.map p.edgeNames := by
  have henc : Encodes p edges (edges.foldl p.routeStep (⟨[]⟩, ⟨[]⟩, [])) := by
    simpa using encodes_foldl p edges [] (⟨[]⟩, ⟨[]⟩, []) ⟨rfl, fun t ht => by simp at ht,
      fun t ht => by simp at ht⟩
  have hlen : (p.edgesToRoutes edges).routes.length / 3 = edges.length := by
    simp only [PrioritySelector.edgesToRoutes, henc.length]
    omega
  apply List.ext_getElem
  · simp [Routes.triples, hlen]
  · intro t h₁ h₂
    simp only [Routes.triples, List.getElem_map, List.getElem_range]
    exact henc.names t (by simpa using h₂)

end PrioritySelector

/-- A selector, and the `ack` closures it handed out so far, which the caller may call at any
later time and more than once. -/
structure Session where
  selector : PrioritySelector
  acks : List Ack

/-- One call on the selector, or of one of its closures. -/
inductive Step : Session → Session → Prop
  | addAuthoritativeRoute (s : Session) (dest via : List Char) :
      Step s ⟨s.selector.addAuthoritativeRoute dest via, s.acks⟩
  | recordRoutes (s : Session) (identified : List Char → Bool) (source : List Char) (r : Routes) :
      Step s ⟨(s.selector.recordRoutes identified source r).1, s.acks⟩
  | verifyRoutes (s : Session) (identified : List Char → Bool) :
      Step s ⟨s.selector.verifyRoutes identified, s.acks⟩
  | select (s : Session) (dest : List Char) (n : Nat) (sortSlice : List Nat → List Nat)
      (routes : Routes) (a : Ack) (h : s.selector.select dest n sortSlice = some (routes, a)) :
      Step s ⟨s.selector, s.acks ++ [a]⟩
  | ack (s : Session) (a : Ack) (ha : a ∈ s.acks) : Step s ⟨s.selector.ack a, s.acks⟩

/-- The sessions reachable from `NewPrioritySelector(self)`. -/
def Reachable (self : List Char) (s : Session) : Prop :=
  Relation.ReflTransGen Step ⟨PrioritySelector.new self, []⟩ s

/-- The invariant of runs: the bookkeeping holds, and every closure handed out refers to a peer
of the selector. -/
structure Session.Inv (s : Session) : Prop where
  counted : s.selector.Counted
  acks : ∀ a ∈ s.acks, a.peer < s.selector.knownByPeers.length

theorem Session.Inv.step {s s' : Session} (hs : s.Inv) (h : Step s s') : s'.Inv := by
  cases h with
  | addAuthoritativeRoute dest via =>
    obtain ⟨hc, hlen⟩ := hs.counted.addAuthoritativeRoute dest via
    exact ⟨hc, fun a ha => Nat.lt_of_lt_of_le (hs.acks a ha) hlen⟩
  | recordRoutes identified source r =>
    obtain ⟨hc, hlen⟩ := hs.counted.recordRoutes identified source r
    exact ⟨hc, fun a ha => Nat.lt_of_lt_of_le (hs.acks a ha) hlen⟩
  | verifyRoutes identified =>
    refine ⟨hs.counted.verifyRoutes identified, fun a ha => ?_⟩
    rw [PrioritySelector.length_verifyRoutes]
    exact hs.acks a ha
  | select dest n sortSlice routes a h =>
    refine ⟨hs.counted, fun a' ha' => ?_⟩
    rcases List.mem_append.mp ha' with ha' | ha'
    · exact hs.acks a' ha'
    · rw [List.mem_singleton.mp ha', hs.counted.peers]
      exact Bimap.lt_length_of_indexOf (PrioritySelector.select_eq_some h).1
  | ack a ha =>
    obtain ⟨hc, hlen⟩ := PrioritySelector.Counted.ack a _ hs.counted (hs.acks a ha)
    exact ⟨hc, fun a' ha' => hlen ▸ hs.acks a' ha'⟩

theorem Session.Inv.of_reachable {self : List Char} {s : Session} (hs : Reachable self s) : s.Inv := by
  induction hs with
  | refl => exact ⟨⟨rfl, fun _ => rfl⟩, fun a ha => by simp at ha⟩
  | tail _ hstep ih => exact ih.step hstep

theorem selector_counts_sources_and_selects_unknown_edges {self : List Char} {s : Session}
    (hs : Reachable self s) :
    (∀ e, s.selector.edgeSources e = s.selector.knownCount e) ∧
      ∀ (dest : List Char) (n : Nat) (sortSlice : List Nat → List Nat) (routes : Routes) (a : Ack),
        (∀ l, (sortSlice l).Perm l) → s.selector.select dest n sortSlice = some (routes, a) →
          routes.triples = a.edges.map s.selector.edgeNames ∧
            s.selector.rdts.indexOf dest = some a.peer ∧
            ∃ chosen extra, a.edges = chosen ++ extra ∧ chosen.length ≤ n ∧
              (∀ e ∈ chosen, e ∈ s.selector.verifiedEdges.members ∧
                e ∉ (s.selector.known a.peer).members) ∧
              (extra = [] ∨ ∃ eid, extra = [eid] ∧
                AssocList.find s.selector.authoritative dest = some eid ∧
                eid ∉ (s.selector.known a.peer).members) := by
  refine ⟨(Session.Inv.of_reachable hs).counted.sources, ?_⟩
  intro dest n sortSlice routes a hsort h
  obtain ⟨hpeer, hroutes, extra, hedges, hextra⟩ := PrioritySelector.select_eq_some h
  refine ⟨by rw [hroutes, PrioritySelector.triples_edgesToRoutes], hpeer, _, extra, hedges, ?_, ?_, ?_⟩
  · -- at most `n` edges are kept of the sorted ones
    rw [List.length_take]
    omega
  · intro e he
    exact PrioritySelector.mem_chosen hsort he
  · rcases hextra with rfl | ⟨eid, rfl, hauth, hk⟩
    · exact .inl rfl
    · refine .inr ⟨eid, rfl, hauth, ?_⟩
      rw [← IntSet.contains_iff, hk]
      exact Bool.false_ne_true

/-- A message from peer `b` with the route from `a` to `b` through `x`. -/
def routeAB : Routes := ⟨["a".toList, "b".toList], ["x".toList], [0, 1, 0]⟩

/-- The selector of `s` once `b` has sent `routeAB`, every device being identified. -/
def selectorAfterAB : PrioritySelector :=
  ((PrioritySelector.new "s".toList).recordRoutes (fun _ => true) "b".toList routeAB).1

/-- The acknowledgement of sending the edge to `a` (peer 1). -/
def ackToA : Ack := ⟨1, [0]⟩

/-- `a` is selected for the edge `b` reported, and the acknowledgement is called twice. -/
def ackedTwice : Session := ⟨(selectorAfterAB.ack ackToA).ack ackToA, [ackToA]⟩

theorem ackedTwice_reachable : Reachable "s".toList ackedTwice := by
  have hselect : selectorAfterAB.select "a".toList 5 id =
      some (selectorAfterAB.edgesToRoutes [0], ackToA) := by decide +kernel
  have h1 : Step ⟨PrioritySelector.new "s".toList, []⟩ ⟨selectorAfterAB, []⟩ :=
    Step.recordRoutes _ (fun _ => true) "b".toList routeAB
  have h2 : Step ⟨selectorAfterAB, []⟩ ⟨selectorAfterAB, [ackToA]⟩ :=
    Step.select _ "a".toList 5 id _ _ hselect
  have h3 : Step ⟨selectorAfterAB, [ackToA]⟩ ⟨selectorAfterAB.ack ackToA, [ackToA]⟩ :=
    Step.ack _ ackToA (List.mem_singleton_self _)
  have h4 : Step ⟨selectorAfterAB.ack ackToA, [ackToA]⟩ ackedTwice :=
    Step.ack _ ackToA (List.mem_singleton_self _)
  exact ((((Relation.ReflTransGen.refl).tail h1).tail h2).tail h3).tail h4

theorem selector_counts_sources_after_two_acks :
    Reachable "s".toList ackedTwice ∧
      (∀ e, ackedTwice.selector.edgeSources e = ackedTwice.selector.knownCount e) ∧
      ∀ (dest : List Char) (n : Nat) (sortSlice : List Nat → List Nat) (routes : Routes) (a : Ack),
        (∀ l, (sortSlice l).Perm l) → ackedTwice.selector.select dest n sortSlice = some (routes, a) →
          routes.triples = a.edges.map ackedTwice.selector.edgeNames ∧
            ackedTwice.selector.rdts.indexOf dest = some a.peer ∧
            ∃ chosen extra, a.edges = chosen ++ extra ∧ chosen.length ≤ n ∧
              (∀ e ∈ chosen, e ∈ ackedTwice.selector.verifiedEdges.members ∧
                e ∉ (ackedTwice.selector.known a.peer).members) ∧
              (extra = [] ∨ ∃ eid, extra = [eid] ∧
                AssocList.find ackedTwice.selector.authoritative dest = some eid ∧
                eid ∉ (ackedTwice.selector.known a.peer).members) :=
  ⟨ackedTwice_reachable, selector_counts_sources_and_selects_unknown_edges ackedTwice_reachable⟩

example : ackedTwice.selector.edgeSources 0 = 2 := by decide +kernel

/-- The (from, to) devices of the verified edges, for edges between two different devices. -/
def verifiedPairs (p : PrioritySelector) : List (List Char × List Char) :=
  (p.verifiedEdges.all.map fun eid => ((p.edgeNames eid).1, (p.edgeNames eid).2.1)).filter
    fun pr => pr.1 ≠ pr.2

/-- The pairs are the complete directed graph on `n` devices. -/
def CompleteOn (pairs : List (List Char × List Char)) (n : Nat) : Prop :=
  ∃ devs : List (List Char), devs.Nodup ∧ devs.length = n ∧
    ∀ a b, (a, b) ∈ pairs ↔ a ∈ devs ∧ b ∈ devs ∧ a ≠ b

/-- Peer `b` reports the route from `a` to `b` through each of two addresses. -/
def twoAddressRoutes : Routes :=
  ⟨["a".toList, "b".toList], ["x".toList, "y".toList], [0, 1, 0, 0, 1, 1]⟩

/-- The selector of `s` once `b` has sent `twoAddressRoutes`, every device being identified. -/
def twoAddressSelector : PrioritySelector :=
  ((PrioritySelector.new "s".toList).recordRoutes (fun _ => true) "b".toList twoAddressRoutes).1

/-- `Complete(2)` counts the two edges from `a` to `b` and reports a complete cluster of two,
while no route from `b` to `a` is known. -/
theorem complete_counts_addresses_not_pairs :
    twoAddressSelector.complete 2 = .ok true ∧ ¬ CompleteOn (verifiedPairs twoAddressSelector) 2 := by
  refine ⟨by decide +kernel, ?_⟩
  rintro ⟨devs, hnodup, hlen, hpairs⟩
  have hab : verifiedPairs twoAddressSelector =
      [("a".toList, "b".toList), ("a".toList, "b".toList)] := by decide +kernel
  obtain ⟨x, y, rfl⟩ := List.length_eq_two.mp hlen
  have hxy : x ≠ y := by simpa using hnodup
  -- both orders of the two devices would have to be the pair from `a` to `b`
  have h1 := (hpairs x y).mpr ⟨by simp, by simp, hxy⟩
  have h2 := (hpairs y x).mpr ⟨by simp, by simp, Ne.symm hxy⟩
  rw [hab] at h1 h2
  simp only [List.mem_cons, List.not_mem_nil, or_false, or_self, Prod.mk.injEq] at h1 h2
  exact hxy (h1.1.trans h2.1.symm)

end Snapd.Cluster
