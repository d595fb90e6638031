import Snapd.Lib.AssocList
import Snapd.Lib.Kahn

/-! The start order of a snap's services (`snap/info.go`, `SortServices`). Each app names the
apps it starts after and those it starts before; among the apps given, these make a graph whose
edges go from the app to start first to the app to start next. `SortServices` builds the
successors of each app and the count of its predecessors in two maps and runs Kahn's sort over
them. With distinct names, it refines `Kahn.run` over the same queue and sorted list, the map of
counts standing for the counts of the sort: the apps come out in an order that keeps every
constraint when no constraints make a cycle, and otherwise the error names exactly the apps that
a cycle reaches. -/

namespace Snapd.Snap

open AssocList Relation

/-- The fields of `AppInfo` that `SortServices` reads. -/
structure AppInfo where
  name : List Char
  before : List (List Char)
  after : List (List Char)
deriving DecidableEq, Repr

/-- `nameToApp`: each app under its name. -/
def nameToApp (apps : List AppInfo) : List (List Char × AppInfo) :=
  apps.foldl (fun m app => insert m app.name app) []

/-- The two maps that `SortServices` builds: the successors of each app, and the count of the
predecessors of each app. -/
structure ServiceGraph where
  successors : List (List Char × List AppInfo)
  predecessors : List (List Char × Int)

/-- `m[k]++` on a map of counts, where a missing key counts zero. -/
def increment (m : List (List Char × Int)) (k : List Char) : List (List Char × Int) :=
  insert m k ((find m k).getD 0 + 1)

/-- `m[k]--`. -/
def decrement (m : List (List Char × Int)) (k : List Char) : List (List Char × Int) :=
  insert m k ((find m k).getD 0 - 1)

/-- The loop over `app.After`: when `other` is one of the apps, `app` gets one more predecessor
and is one of the successors of `other`. -/
def addAfter (nameToApp : List (List Char × AppInfo)) (app : AppInfo) (g : ServiceGraph)
    (other : List Char) : ServiceGraph :=
  if (find nameToApp other).isSome then
    ⟨appendAt g.successors other app, increment g.predecessors app.name⟩
  else g

/-- The loop over `app.Before`: when `other` is one of the apps, it gets one more predecessor and
is one of the successors of `app`. -/
def addBefore (nameToApp : List (List Char × AppInfo)) (app : AppInfo) (g : ServiceGraph)
    (other : List Char) : ServiceGraph :=
  match find nameToApp other with
  | some o => ⟨appendAt g.successors app.name o, increment g.predecessors other⟩
  | none => g

/-- The edges of one app, from its `After` and then its `Before`. -/
def addApp (nameToApp : List (List Char × AppInfo)) (g : ServiceGraph) (app : AppInfo) :
    ServiceGraph :=
  app.before.foldl (addBefore nameToApp app) (app.after.foldl (addAfter nameToApp app) g)

/-- The successors and predecessors of the apps, as `SortServices` builds them. -/
def serviceGraph (apps : List AppInfo) : ServiceGraph :=
  apps.foldl (addApp (nameToApp apps)) ⟨[], []⟩

/-- The variables of the loop of `SortServices`. -/
structure SortState where
  queue : List AppInfo
  predecessors : List (List Char × Int)
  sorted : List AppInfo

/-- One round of the inner loop: the successor has one predecessor less, and once it has none it
leaves the map and joins the queue. -/
def releaseSuccessor (s : SortState) (successor : AppInfo) : SortState :=
  if (find (decrement s.predecessors successor.name) successor.name).getD 0 = 0 then
    { s with predecessors := erase (decrement s.predecessors successor.name) successor.name,
             queue := s.queue ++ [successor] }
  else { s with predecessors := decrement s.predecessors successor.name }

/-- The loop `for len(queue) > 0`, for at most `fuel` rounds: the app at the head of the queue
releases its successors and is appended to the sorted apps. -/
def sortQueue (successors : List (List Char × List AppInfo)) : Nat → SortState → SortState
  | 0, s => s
  | fuel + 1, s =>
    match s.queue with
    | [] => s
    | app :: queue =>
      sortQueue successors fuel
        { ((find successors app.name).getD []).foldl releaseSuccessor { s with queue := queue } with
          sorted := s.sorted ++ [app] }

/-- The loop from the apps with no predecessors, in the order of the apps. -/
def sortedState (fuel : Nat) (apps : List AppInfo) : SortState :=
  sortQueue (serviceGraph apps).successors fuel
    ⟨apps.filter fun app => (find (serviceGraph apps).predecessors app.name).getD 0 = 0,
      (serviceGraph apps).predecessors, []⟩

/-- One name written to the buffer of the error: after a separator, unless the buffer is still
empty. -/
def writeName (buf : List Char) (name : List Char) : List Char :=
  (if buf ≠ [] then buf ++ [',', ' '] else buf) ++ name

def cycleError (names : List (List Char)) : String :=
  "applications are part of a before/after cycle: " ++ String.ofList (names.foldl writeName [])

/-- `SortServices`, its loop run for at most `fuel` rounds: the apps in start order, or the error
naming the apps whose predecessors were never all started. The error ranges over a Go map, whose
order `rangeOrder` gives. -/
def sortServices (rangeOrder : List (List Char) → List (List Char)) (fuel : Nat)
    (apps : List AppInfo) : Except String (List AppInfo) :=
  if (sortedState fuel apps).predecessors ≠ [] then
    .error (cycleError (rangeOrder ((sortedState fuel apps).predecessors.map Prod.fst)))
  else .ok (sortedState fuel apps).sorted

/-- `b` is to start before `a`: `a` starts after `b`, or `b` before `a`. -/
def StartsBefore (apps : List AppInfo) (b a : AppInfo) : Prop :=
  b ∈ apps ∧ a ∈ apps ∧ (b.name ∈ a.after ∨ a.name ∈ b.before)

/-- The successors of an app in the graph, looked up under its name. -/
def ServiceGraph.succ (g : ServiceGraph) (app : AppInfo) : List AppInfo :=
  (find g.successors app.name).getD []

/-- All the successors the graph lists. -/
def ServiceGraph.edges (g : ServiceGraph) : List AppInfo := g.successors.flatMap Prod.snd

theorem find_increment (m : List (List Char × Int)) (k k₂ : List Char) :
    find (increment m k) k₂ = if k = k₂ then some ((find m k).getD 0 + 1) else find m k₂ :=
  find_insert m k k₂ _

theorem find_decrement (m : List (List Char × Int)) (k k₂ : List Char) :
    find (decrement m k) k₂ = if k = k₂ then some ((find m k).getD 0 - 1) else find m k₂ :=
  find_insert m k k₂ _

theorem sortQueue_of_queue_eq_nil (successors : List (List Char × List AppInfo)) {s : SortState}
    (h : s.queue = []) : ∀ fuel, sortQueue successors fuel s = s
  | 0 => rfl
  | fuel + 1 => by rw [sortQueue, h]

theorem sortQueue_of_queue_eq_cons (successors : List (List Char × List AppInfo)) (fuel : Nat)
    {s : SortState} {app : AppInfo} {queue : List AppInfo} (h : s.queue = app :: queue) :
    sortQueue successors (fuel + 1) s = sortQueue successors fuel
      { ((find successors app.name).getD []).foldl releaseSuccessor { s with queue := queue } with
        sorted := s.sorted ++ [app] } := by
  rw [sortQueue, h]

theorem foldl_writeName {names : List (List Char)} (hne : ∀ n ∈ names, n ≠ []) {buf : List Char}
    (hbuf : buf ≠ []) : names.foldl writeName buf = [',', ' '].intercalate (buf :: names) := by
  induction names generalizing buf with
  | nil => simp
  | cons n names ih =>
    rw [List.foldl_cons, writeName, if_pos hbuf,
      ih (fun m hm => hne m (List.mem_cons_of_mem n hm)) (by simp [hbuf]),
      List.intercalate_cons_cons]
    cases names with
    | nil => simp
    | cons m rest => simp [List.intercalate_cons_cons]

theorem cycleError_eq_intercalate {names : List (List Char)} (hne : ∀ n ∈ names, n ≠ []) :
    cycleError names = "applications are part of a before/after cycle: " ++
      String.ofList ([',', ' '].intercalate names) := by
  unfold cycleError
  -- only the buffer differs; the texts are not computed
  congr 2
  cases names with
  | nil => rfl
  | cons n rest =>
    rw [List.foldl_cons, writeName, if_neg (by simp), List.nil_append,
      foldl_writeName (fun m hm => hne m (List.mem_cons_of_mem n hm)) (hne n List.mem_cons_self)]

/-- An app with an empty name writes nothing, not even the separator before the next name. -/
example : cycleError [[], "b".toList] = "applications are part of a before/after cycle: b" := by
  decide

section Names

variable {apps : List AppInfo} (hnames : (apps.map AppInfo.name).Nodup)
include hnames

theorem eq_of_name_eq {a b : AppInfo} (ha : a ∈ apps) (hb : b ∈ apps) (h : a.name = b.name) :
    a = b :=
  List.inj_on_of_nodup_map hnames ha hb h

theorem find_nameToApp_eq_some {k : List Char} {o : AppInfo} :
    find (nameToApp apps) k = some o ↔ o ∈ apps ∧ o.name = k := by
  constructor
  · intro h
    by_cases hk : k ∈ apps.map AppInfo.name
    · obtain ⟨a, ha, rfl⟩ := List.mem_map.mp hk
      have hfind := find_foldl_insert_of_mem AppInfo.name (fun x => x) hnames ha []
      rw [nameToApp, hfind] at h
      cases h
      exact ⟨ha, rfl⟩
    · rw [nameToApp, find_foldl_insert_of_not_mem AppInfo.name (fun x => x) hk] at h
      cases h
  · rintro ⟨ho, rfl⟩
    exact find_foldl_insert_of_mem AppInfo.name (fun x => x) hnames ho []

theorem isSome_find_nameToApp {k : List Char} :
    (find (nameToApp apps) k).isSome ↔ k ∈ apps.map AppInfo.name := by
  rw [Option.isSome_iff_exists]
  constructor
  · rintro ⟨o, ho⟩
    obtain ⟨hoa, rfl⟩ := (find_nameToApp_eq_some hnames).mp ho
    exact List.mem_map_of_mem hoa
  · intro hk
    obtain ⟨a, ha, rfl⟩ := List.mem_map.mp hk
    exact ⟨a, (find_nameToApp_eq_some hnames).mpr ⟨ha, rfl⟩⟩

end Names

section Building

/-- What the building of the graph keeps: the successors are apps, listed under names of apps,
and the count of predecessors of a name is the number of successors with that name. -/
structure ServiceGraph.Inv (apps : List AppInfo) (g : ServiceGraph) : Prop where
  successors_named : ∀ k ∈ g.successors.map Prod.fst, k ∈ apps.map AppInfo.name
  successors_nodup : (g.successors.map Prod.fst).Nodup
  edges_mem : ∀ x ∈ g.edges, x ∈ apps
  predecessors_eq : ∀ k, (find g.predecessors k).getD 0 = (g.edges.countP (·.name = k) : Int)
  predecessors_pos : ∀ k v, find g.predecessors k = some v → 0 < v
  predecessors_named : ∀ k ∈ g.predecessors.map Prod.fst, k ∈ apps.map AppInfo.name
  predecessors_nodup : (g.predecessors.map Prod.fst).Nodup

variable {apps : List AppInfo}

/-- One edge, from the app named `k` to `x`. -/
def ServiceGraph.addEdge (g : ServiceGraph) (k : List Char) (x : AppInfo) : ServiceGraph :=
  ⟨appendAt g.successors k x, increment g.predecessors x.name⟩

theorem ServiceGraph.inv_empty : ServiceGraph.Inv apps ⟨[], []⟩ where
  successors_named := by simp
  successors_nodup := by simp
  edges_mem := by simp [ServiceGraph.edges]
  predecessors_eq := by simp [ServiceGraph.edges]
  predecessors_pos := by simp
  predecessors_named := by simp
  predecessors_nodup := by simp

theorem ServiceGraph.Inv.addEdge {g : ServiceGraph} (h : g.Inv apps) {k : List Char} {x : AppInfo}
    (hk : k ∈ apps.map AppInfo.name) (hx : x ∈ apps) : (g.addEdge k x).Inv apps := by
  have hedges : (g.addEdge k x).edges.Perm (g.edges ++ [x]) :=
    flatMap_appendAt_perm g.successors k x
  refine ⟨?_, ?_, ?_, ?_, ?_, ?_, ?_⟩
  · intro j hj
    rcases (mem_keys_appendAt _ _ _ _).mp hj with rfl | hj
    · exact hk
    · exact h.successors_named j hj
  · exact nodup_keys_insert h.successors_nodup _ _
  · intro y hy
    rcases List.mem_append.mp (hedges.mem_iff.mp hy) with hy | hy
    · exact h.edges_mem y hy
    · rw [List.mem_singleton.mp hy]
      exact hx
  · intro j
    rw [hedges.countP_eq, List.countP_append, ServiceGraph.addEdge, find_increment]
    by_cases hj : x.name = j
    · simp [hj, h.predecessors_eq j]
    · simp [hj, h.predecessors_eq j]
  · intro j v hv
    rw [ServiceGraph.addEdge, find_increment] at hv
    split at hv
    · cases hv
      have := h.predecessors_eq x.name
      omega
    · exact h.predecessors_pos j v hv
  · intro j hj
    rcases (mem_keys_insert _ _ _ _).mp hj with rfl | hj
    · exact List.mem_map_of_mem hx
    · exact h.predecessors_named j hj
  · exact nodup_keys_insert h.predecessors_nodup _ _

theorem mem_find_addEdge {g : ServiceGraph} {k k₂ : List Char} {x y : AppInfo} :
    y ∈ (find (g.addEdge k x).successors k₂).getD [] ↔
      y ∈ (find g.successors k₂).getD [] ∨ (k = k₂ ∧ y = x) :=
  mem_find_appendAt

theorem addBefore_of_find_eq_none {other : List Char} (ho : find (nameToApp apps) other = none)
    (app : AppInfo) (g : ServiceGraph) : addBefore (nameToApp apps) app g other = g := by
  rw [addBefore, ho]

variable (hnames : (apps.map AppInfo.name).Nodup)
include hnames

theorem addAfter_of_mem {other : List Char} (hother : other ∈ apps.map AppInfo.name)
    (app : AppInfo) (g : ServiceGraph) :
    addAfter (nameToApp apps) app g other = g.addEdge other app := by
  rw [addAfter, if_pos ((isSome_find_nameToApp hnames).mpr hother)]
  rfl

theorem addAfter_of_not_mem {other : List Char} (hother : other ∉ apps.map AppInfo.name)
    (app : AppInfo) (g : ServiceGraph) : addAfter (nameToApp apps) app g other = g := by
  rw [addAfter, if_neg (mt (isSome_find_nameToApp hnames).mp hother)]

theorem addBefore_of_find {other : List Char} {o : AppInfo}
    (ho : find (nameToApp apps) other = some o) (app : AppInfo) (g : ServiceGraph) :
    addBefore (nameToApp apps) app g other = g.addEdge app.name o := by
  obtain ⟨-, rfl⟩ := (find_nameToApp_eq_some hnames).mp ho
  rw [addBefore, ho]
  rfl

theorem ServiceGraph.Inv.addApp {g : ServiceGraph} (h : g.Inv apps) {app : AppInfo}
    (happ : app ∈ apps) : (addApp (nameToApp apps) g app).Inv apps := by
  have hname : app.name ∈ apps.map AppInfo.name := List.mem_map_of_mem happ
  have hafter := Run.foldl_invariant (addAfter (nameToApp apps) app) (fun g _ => g.Inv apps)
    app.after (fun g _ other _ hg => by
      by_cases hother : other ∈ apps.map AppInfo.name
      · rw [addAfter_of_mem hnames hother]
        exact hg.addEdge hother happ
      · rw [addAfter_of_not_mem hnames hother]
        exact hg) g [] h
  refine Run.foldl_invariant (addBefore (nameToApp apps) app) (fun g _ => g.Inv apps)
    app.before (fun g _ other _ hg => ?_) _ [] hafter
  cases ho : find (nameToApp apps) other with
  | some o =>
    rw [addBefore_of_find hnames ho]
    exact hg.addEdge hname ((find_nameToApp_eq_some hnames).mp ho).1
  | none =>
    rw [addBefore_of_find_eq_none ho]
    exact hg

theorem serviceGraph_inv : (serviceGraph apps).Inv apps :=
  Run.foldl_invariant (addApp (nameToApp apps)) (fun g _ => g.Inv apps) apps
    (fun _ _ _ happ hg => hg.addApp hnames happ) _ [] ServiceGraph.inv_empty

/-- The successors the graph lists under a name, once the apps `H` are processed: the apps of
`H` that start after the app of that name, and the apps that an app of `H` with that name starts
before. -/
def SuccessorsFrom (apps H : List AppInfo) (g : ServiceGraph) : Prop :=
  ∀ k x, x ∈ (find g.successors k).getD [] ↔
    ∃ a ∈ H, (k ∈ a.after ∧ k ∈ apps.map AppInfo.name ∧ x = a) ∨
      (a.name = k ∧ x ∈ apps ∧ x.name ∈ a.before)

theorem successorsFrom_addApp {H : List AppInfo} {g : ServiceGraph}
    (h : SuccessorsFrom apps H g) (app : AppInfo) :
    SuccessorsFrom apps (H ++ [app]) (addApp (nameToApp apps) g app) := by
  -- the loop over `After` adds `app` under the names of apps it starts after
  have hafter := Run.foldl_invariant (addAfter (nameToApp apps) app)
    (fun g' A => ∀ k x, x ∈ (find g'.successors k).getD [] ↔ x ∈ (find g.successors k).getD [] ∨
      (k ∈ A ∧ k ∈ apps.map AppInfo.name ∧ x = app))
    app.after (fun g' A other _ hg k x => by
      by_cases hother : other ∈ apps.map AppInfo.name
      · rw [addAfter_of_mem hnames hother, mem_find_addEdge, hg, List.mem_append,
          List.mem_singleton]
        constructor
        · rintro ((hx | ⟨hA, hk, rfl⟩) | ⟨rfl, rfl⟩)
          · exact .inl hx
          · exact .inr ⟨.inl hA, hk, rfl⟩
          · exact .inr ⟨.inr rfl, hother, rfl⟩
        · rintro (hx | ⟨hA | rfl, hk, rfl⟩)
          · exact .inl (.inl hx)
          · exact .inl (.inr ⟨hA, hk, rfl⟩)
          · exact .inr ⟨rfl, rfl⟩
      · rw [addAfter_of_not_mem hnames hother, hg, List.mem_append, List.mem_singleton]
        constructor
        · rintro (hx | ⟨hA, hk, rfl⟩)
          · exact .inl hx
          · exact .inr ⟨.inl hA, hk, rfl⟩
        · rintro (hx | ⟨hA | rfl, hk, rfl⟩)
          · exact .inl hx
          · exact .inr ⟨hA, hk, rfl⟩
          · exact absurd hk hother) g [] (by simp)
  -- the loop over `Before` adds the apps it starts before under its name
  have hbefore := Run.foldl_invariant (addBefore (nameToApp apps) app)
    (fun g' B => ∀ k x, x ∈ (find g'.successors k).getD [] ↔
      x ∈ (find (app.after.foldl (addAfter (nameToApp apps) app) g).successors k).getD [] ∨
      (app.name = k ∧ x ∈ apps ∧ x.name ∈ B))
    app.before (fun g' B other _ hg k x => by
      cases ho : find (nameToApp apps) other with
      | some o =>
        rw [addBefore_of_find hnames ho, mem_find_addEdge, hg]
        obtain ⟨hoa, rfl⟩ := (find_nameToApp_eq_some hnames).mp ho
        constructor
        · rintro ((hx | ⟨hk, hxa, hxB⟩) | ⟨hk, rfl⟩)
          · exact .inl hx
          · exact .inr ⟨hk, hxa, List.mem_append_left _ hxB⟩
          · exact .inr ⟨hk, hoa, by simp⟩
        · rintro (hx | ⟨hk, hxa, hxB⟩)
          · exact .inl (.inl hx)
          · rcases List.mem_append.mp hxB with hxB | hxB
            · exact .inl (.inr ⟨hk, hxa, hxB⟩)
            · rw [List.mem_singleton] at hxB
              exact .inr ⟨hk, eq_of_name_eq hnames hxa hoa hxB⟩
      | none =>
        rw [addBefore_of_find_eq_none ho, hg]
        constructor
        · rintro (hx | ⟨hk, hxa, hxB⟩)
          · exact .inl hx
          · exact .inr ⟨hk, hxa, List.mem_append_left _ hxB⟩
        · rintro (hx | ⟨hk, hxa, hxB⟩)
          · exact .inl hx
          · rcases List.mem_append.mp hxB with hxB | hxB
            · exact .inr ⟨hk, hxa, hxB⟩
            · rw [List.mem_singleton] at hxB
              have := (find_nameToApp_eq_some hnames).mpr ⟨hxa, hxB⟩
              rw [ho] at this
              cases this) (app.after.foldl (addAfter (nameToApp apps) app) g) [] (by simp)
  intro k x
  rw [addApp, hbefore k x, hafter k x, h k x]
  simp only [List.nil_append, List.mem_append, List.mem_singleton]
  constructor
  · rintro ((⟨a, ha, hax⟩ | hx) | hx)
    · exact ⟨a, .inl ha, hax⟩
    · exact ⟨app, .inr rfl, .inl hx⟩
    · exact ⟨app, .inr rfl, .inr hx⟩
  · rintro ⟨a, ha | rfl, hax⟩
    · exact .inl (.inl ⟨a, ha, hax⟩)
    · rcases hax with hax | hax
      · exact .inl (.inr hax)
      · exact .inr hax

theorem successorsFrom_serviceGraph : SuccessorsFrom apps apps (serviceGraph apps) := by
  have := Run.foldl_invariant (addApp (nameToApp apps)) (fun g H => SuccessorsFrom apps H g) apps
    (fun g H app _ hg => successorsFrom_addApp hnames hg app) ⟨[], []⟩ [] (by simp [SuccessorsFrom])
  rw [List.nil_append] at this
  exact this

theorem before_serviceGraph_iff {b a : AppInfo} :
    Kahn.Before (serviceGraph apps).succ apps b a ↔ StartsBefore apps b a := by
  unfold Kahn.Before ServiceGraph.succ StartsBefore
  rw [successorsFrom_serviceGraph hnames]
  constructor
  · rintro ⟨hb, c, hc, ⟨hbc, -, rfl⟩ | ⟨hcb, ha, hab⟩⟩
    · exact ⟨hb, hc, .inl hbc⟩
    · rw [eq_of_name_eq hnames hc hb hcb] at hab
      exact ⟨hb, ha, .inr hab⟩
  · rintro ⟨hb, ha, hba | hab⟩
    · exact ⟨hb, a, ha, .inl ⟨hba, List.mem_map_of_mem hb, rfl⟩⟩
    · exact ⟨hb, b, hb, .inr ⟨rfl, ha, hab⟩⟩

theorem before_serviceGraph_eq : Kahn.Before (serviceGraph apps).succ apps = StartsBefore apps := by
  funext b a
  exact propext (before_serviceGraph_iff hnames)

theorem succ_serviceGraph_mem {b x : AppInfo} (hx : x ∈ (serviceGraph apps).succ b) : x ∈ apps := by
  unfold ServiceGraph.succ at hx
  rw [successorsFrom_serviceGraph hnames] at hx
  obtain ⟨a, ha, ⟨-, -, rfl⟩ | ⟨-, hx, -⟩⟩ := hx
  · exact ha
  · exact hx

theorem find_predecessors_serviceGraph {a : AppInfo} (ha : a ∈ apps) :
    (find (serviceGraph apps).predecessors a.name).getD 0 =
      Kahn.indegree (serviceGraph apps).succ apps a := by
  have h := serviceGraph_inv hnames
  have hperm : (apps.flatMap (serviceGraph apps).succ).Perm (serviceGraph apps).edges := by
    have := flatMap_find_perm hnames h.successors_nodup h.successors_named
    rwa [List.flatMap_map] at this
  have hcount : (serviceGraph apps).edges.countP (·.name = a.name) =
      (serviceGraph apps).edges.count a := by
    rw [List.count_eq_countP]
    apply List.countP_congr
    intro x hx
    have hxa := h.edges_mem x hx
    constructor
    · intro hname
      simpa using eq_of_name_eq hnames hxa ha (of_decide_eq_true hname)
    · intro hxa'
      simp [beq_iff_eq.mp hxa']
  rw [h.predecessors_eq, hcount, Kahn.indegree, Kahn.pending, ← hperm.count_eq]
  simp

end Building

section Refinement

variable {apps : List AppInfo}

/-- A map of counts stands for the counts of the sort over the apps: it holds the count of each
app under the app's name, and only the counts that are not zero. -/
structure Represents (apps : List AppInfo) (predecessors : List (List Char × Int))
    (count : AppInfo → Int) : Prop where
  count_eq : ∀ a ∈ apps, (find predecessors a.name).getD 0 = count a
  ne_zero : ∀ k v, find predecessors k = some v → v ≠ 0
  named : ∀ k ∈ predecessors.map Prod.fst, k ∈ apps.map AppInfo.name
  nodup : (predecessors.map Prod.fst).Nodup

/-- A state of the loop of `SortServices` refines a state of the sort: the same queue, and a map
of counts that stands for the counts. The sorted apps are followed apart, since a round of the
source sorts the app after releasing its successors and a round of the sort before. -/
structure Refines (apps : List AppInfo) (s : SortState) (t : Kahn.State AppInfo) : Prop where
  queue_eq : s.queue = t.queue
  represents : Represents apps s.predecessors t.count

/-- The names in a map that stands for the counts are those of the apps whose count is not
zero. -/
theorem Represents.mem_keys_iff {p : List (List Char × Int)} {count : AppInfo → Int}
    (h : Represents apps p count) (x : List Char) :
    x ∈ p.map Prod.fst ↔ ∃ a ∈ apps, a.name = x ∧ count a ≠ 0 := by
  constructor
  · intro hx
    obtain ⟨a, ha, rfl⟩ := List.mem_map.mp (h.named x hx)
    obtain ⟨v, hv⟩ := Option.isSome_iff_exists.mp ((isSome_find_iff p a.name).mpr hx)
    refine ⟨a, ha, rfl, ?_⟩
    rw [← h.count_eq a ha, hv]
    exact h.ne_zero _ v hv
  · rintro ⟨a, ha, rfl, hne⟩
    rw [← isSome_find_iff, Option.isSome_iff_ne_none]
    intro hnone
    rw [← h.count_eq a ha, hnone] at hne
    exact hne rfl

theorem Represents.eq_nil_iff {p : List (List Char × Int)} {count : AppInfo → Int}
    (h : Represents apps p count) : p = [] ↔ ∀ a ∈ apps, count a = 0 := by
  rw [← List.map_eq_nil_iff (f := Prod.fst), List.eq_nil_iff_forall_not_mem]
  simp only [h.mem_keys_iff]
  constructor
  · intro hall a ha
    by_contra hne
    exact hall a.name ⟨a, ha, rfl, hne⟩
  · rintro hall x ⟨a, ha, -, hne⟩
    exact hne (hall a ha)

variable (hnames : (apps.map AppInfo.name).Nodup)
include hnames

theorem Represents.count_eq_of_ne {p : List (List Char × Int)} {count : AppInfo → Int}
    (h : Represents apps p count) {a b : AppInfo} (ha : a ∈ apps) (hb : b ∈ apps) (hab : a ≠ b) :
    (find (Snap.decrement p b.name) a.name).getD 0 = Function.update count b (count b - 1) a := by
  have hne : b.name ≠ a.name := fun he => hab (eq_of_name_eq hnames ha hb he.symm)
  simp [find_decrement, hne, h.count_eq a ha, hab]

theorem Represents.decrement {p : List (List Char × Int)} {count : AppInfo → Int}
    (h : Represents apps p count) {b : AppInfo} (hb : b ∈ apps) (hne : count b - 1 ≠ 0) :
    Represents apps (Snap.decrement p b.name) (Function.update count b (count b - 1)) where
  count_eq a ha := by
    by_cases hab : a = b
    · subst hab
      simp [find_decrement, h.count_eq a ha]
    · exact h.count_eq_of_ne hnames ha hb hab
  ne_zero k v hv := by
    rw [find_decrement] at hv
    split at hv
    · cases hv
      rw [h.count_eq b hb]
      exact hne
    · exact h.ne_zero k v hv
  named k hk := by
    rcases (mem_keys_insert _ _ _ _).mp hk with rfl | hk
    · exact List.mem_map_of_mem hb
    · exact h.named k hk
  nodup := nodup_keys_insert h.nodup _ _

theorem Represents.erase_decrement {p : List (List Char × Int)} {count : AppInfo → Int}
    (h : Represents apps p count) {b : AppInfo} (hb : b ∈ apps) (h0 : count b - 1 = 0) :
    Represents apps (erase (Snap.decrement p b.name) b.name) (Function.update count b (count b - 1)) where
  count_eq a ha := by
    by_cases hab : a = b
    · subst hab
      simp [h0]
    · have hne : b.name ≠ a.name := fun he => hab (eq_of_name_eq hnames ha hb he.symm)
      rw [find_erase_of_ne _ hne]
      exact h.count_eq_of_ne hnames ha hb hab
  ne_zero k v hv := by
    by_cases hk : b.name = k
    · subst hk
      simp at hv
    · rw [find_erase_of_ne _ hk, find_decrement, if_neg hk] at hv
      exact h.ne_zero k v hv
  named k hk := by
    obtain ⟨e, he, rfl⟩ := List.mem_map.mp hk
    rcases (mem_keys_insert _ _ _ _).mp (List.mem_map_of_mem (List.mem_of_mem_filter he)) with
      hk | hk
    · rw [hk]
      exact List.mem_map_of_mem hb
    · exact h.named _ hk
  nodup := nodup_keys_erase (nodup_keys_insert h.nodup _ _) _

theorem Refines.releaseSuccessor {s : SortState} {t : Kahn.State AppInfo} (h : Refines apps s t)
    {b : AppInfo} (hb : b ∈ apps) : Refines apps (Snap.releaseSuccessor s b) (Kahn.release t b) := by
  have hval : (find (Snap.decrement s.predecessors b.name) b.name).getD 0 = t.count b - 1 := by
    simp [find_decrement, h.represents.count_eq b hb]
  by_cases h0 : t.count b - 1 = 0
  · have hs : Snap.releaseSuccessor s b =
        { s with predecessors := erase (Snap.decrement s.predecessors b.name) b.name,
                 queue := s.queue ++ [b] } := by
      rw [Snap.releaseSuccessor, hval, if_pos h0]
    rw [hs]
    exact ⟨by simp [Kahn.release, h0, h.queue_eq],
      h.represents.erase_decrement hnames hb h0⟩
  · have hs : Snap.releaseSuccessor s b =
        { s with predecessors := Snap.decrement s.predecessors b.name } := by
      rw [Snap.releaseSuccessor, hval, if_neg h0]
    rw [hs]
    exact ⟨by simp [Kahn.release, h0, h.queue_eq], h.represents.decrement hnames hb h0⟩

theorem Refines.foldl_releaseSuccessor {s : SortState} {t : Kahn.State AppInfo}
    (h : Refines apps s t) {l : List AppInfo} (hl : ∀ b ∈ l, b ∈ apps) :
    Refines apps (l.foldl Snap.releaseSuccessor s) (l.foldl Kahn.release t) := by
  induction l generalizing s t with
  | nil => exact h
  | cons b l ih =>
    exact ih (h.releaseSuccessor hnames (hl b List.mem_cons_self))
      fun x hx => hl x (List.mem_cons_of_mem b hx)

theorem Refines.sortQueue {s : SortState} {t : Kahn.State AppInfo} (h : Refines apps s t)
    (hs : s.sorted = t.sorted) : ∀ fuel,
      Refines apps (Snap.sortQueue (serviceGraph apps).successors fuel s)
        (Kahn.run (serviceGraph apps).succ fuel t) ∧
      (Snap.sortQueue (serviceGraph apps).successors fuel s).sorted =
        (Kahn.run (serviceGraph apps).succ fuel t).sorted := by
  intro fuel
  induction fuel generalizing s t with
  | zero => exact ⟨h, hs⟩
  | succ n ih =>
    cases hq : t.queue with
    | nil =>
      have hsq : s.queue = [] := h.queue_eq.trans hq
      rw [Kahn.run_of_queue_eq_nil _ hq, sortQueue_of_queue_eq_nil _ hsq]
      exact ⟨h, hs⟩
    | cons app q =>
      have hsq : s.queue = app :: q := h.queue_eq.trans hq
      have hstep : Kahn.step (serviceGraph apps).succ t = some (((serviceGraph apps).succ app).foldl
          Kahn.release { t with queue := q, sorted := t.sorted ++ [app] }) :=
        (Kahn.step_eq_some_iff _).mpr ⟨app, q, hq, rfl⟩
      rw [Kahn.run_succ_of_step _ hstep, sortQueue_of_queue_eq_cons _ _ hsq]
      have hround := Refines.foldl_releaseSuccessor hnames
        (s := { s with queue := q }) (t := { t with queue := q, sorted := t.sorted ++ [app] })
        ⟨rfl, h.represents⟩ (l := (serviceGraph apps).succ app)
        (fun x hx => succ_serviceGraph_mem hnames hx)
      refine ih ⟨hround.queue_eq, hround.represents⟩ ?_
      show s.sorted ++ [app] = _
      rw [Kahn.foldl_release_sorted, hs]

theorem refines_start :
    Refines apps ⟨apps.filter fun app => (find (serviceGraph apps).predecessors app.name).getD 0 = 0,
      (serviceGraph apps).predecessors, []⟩ (Kahn.init (serviceGraph apps).succ apps) := by
  have hg := serviceGraph_inv hnames
  refine ⟨?_, ⟨fun a ha => find_predecessors_serviceGraph hnames ha,
    fun k v hv => (hg.predecessors_pos k v hv).ne', hg.predecessors_named, hg.predecessors_nodup⟩⟩
  apply List.filter_congr
  intro a ha
  rw [find_predecessors_serviceGraph hnames ha]

theorem sortedState_refines (fuel : Nat) :
    Refines apps (sortedState fuel apps)
        (Kahn.run (serviceGraph apps).succ fuel (Kahn.init (serviceGraph apps).succ apps)) ∧
      (sortedState fuel apps).sorted =
        (Kahn.run (serviceGraph apps).succ fuel (Kahn.init (serviceGraph apps).succ apps)).sorted :=
  (refines_start hnames).sortQueue hnames rfl fuel

end Refinement

section StartOrder

/-- The sort that the loop of `SortServices` refines. -/
def sortRun (fuel : Nat) (apps : List AppInfo) : Kahn.State AppInfo :=
  Kahn.run (serviceGraph apps).succ fuel (Kahn.init (serviceGraph apps).succ apps)

variable {apps : List AppInfo} {fuel : Nat} {rangeOrder : List (List Char) → List (List Char)}

theorem sortServices_eq_ok_iff {sorted : List AppInfo} :
    sortServices rangeOrder fuel apps = .ok sorted ↔
      (sortedState fuel apps).predecessors = [] ∧ (sortedState fuel apps).sorted = sorted := by
  unfold sortServices
  split <;> simp_all

theorem sortServices_eq_error_iff {msg : String} :
    sortServices rangeOrder fuel apps = .error msg ↔ (sortedState fuel apps).predecessors ≠ [] ∧
      cycleError (rangeOrder ((sortedState fuel apps).predecessors.map Prod.fst)) = msg := by
  unfold sortServices
  split <;> simp_all

theorem StartsBefore.mem_of_transGen {b a : AppInfo} (h : TransGen (StartsBefore apps) b a) :
    b ∈ apps := by
  induction h with
  | single h => exact h.1
  | tail _ _ ih => exact ih

variable (hnames : (apps.map AppInfo.name).Nodup) (hfuel : apps.length ≤ fuel)
include hnames hfuel

theorem sortRun_finished :
    Kahn.Inv (serviceGraph apps).succ apps [] (sortRun fuel apps) ∧ (sortRun fuel apps).queue = [] ∧
      Refines apps (sortedState fuel apps) (sortRun fuel apps) ∧
      (sortedState fuel apps).sorted = (sortRun fuel apps).sorted :=
  have hclosed : ∀ b ∈ apps, ∀ a ∈ (serviceGraph apps).succ b, a ∈ apps :=
    fun _ _ _ ha => succ_serviceGraph_mem hnames ha
  ⟨(Kahn.run_init (hnames.of_map _) hclosed hfuel).1, (Kahn.run_init (hnames.of_map _) hclosed hfuel).2,
    sortedState_refines hnames fuel⟩

/-- Once the loop has run its course, the map of counts is empty exactly when every app is
sorted. -/
theorem predecessors_sortedState_eq_nil_iff :
    (sortedState fuel apps).predecessors = [] ↔ ∀ a ∈ apps, a ∈ (sortRun fuel apps).sorted := by
  obtain ⟨hinv, hq, hr, -⟩ := sortRun_finished hnames hfuel
  rw [hr.represents.eq_nil_iff]
  exact forall₂_congr fun a ha => hinv.count_eq_zero_iff hq ha

theorem not_mem_sortRun_iff {a : AppInfo} (ha : a ∈ apps) :
    a ∉ (sortRun fuel apps).sorted ↔
      ∃ c, TransGen (StartsBefore apps) c c ∧ ReflTransGen (StartsBefore apps) c a := by
  obtain ⟨hinv, hq, -, -⟩ := sortRun_finished hnames hfuel
  rw [hinv.not_mem_sorted_iff hq ha, before_serviceGraph_eq hnames]

end StartOrder

/-- For apps with distinct names, `SortServices` returns the apps in an order in which every app
comes after those it is to start after, and before those it is to start before; and it returns
an order exactly when these constraints make no cycle. -/
theorem sortServices_start_order (rangeOrder : List (List Char) → List (List Char))
    (apps : List AppInfo) (hnames : (apps.map AppInfo.name).Nodup) (fuel : Nat)
    (hfuel : apps.length ≤ fuel) :
    (∀ sorted, sortServices rangeOrder fuel apps = .ok sorted →
      sorted.Perm apps ∧ ∀ l₁ a l₂, sorted = l₁ ++ a :: l₂ → ∀ b, StartsBefore apps b a → b ∈ l₁) ∧
    ((∃ sorted, sortServices rangeOrder fuel apps = .ok sorted) ↔ ∀ a, ¬ TransGen (StartsBefore apps) a a) := by
  obtain ⟨hinv, hq, -, hsorted⟩ := sortRun_finished hnames hfuel
  have hempty := predecessors_sortedState_eq_nil_iff hnames hfuel
  refine ⟨?_, ?_⟩
  · intro sorted hok
    obtain ⟨hnil, rfl⟩ := sortServices_eq_ok_iff.mp hok
    rw [hsorted]
    refine ⟨?_, fun l₁ a l₂ hsplit b hb => hinv.topo l₁ a l₂ hsplit b
      ((before_serviceGraph_iff hnames).mpr hb)⟩
    have hnd : (sortRun fuel apps).sorted.Nodup := by simpa [hq] using hinv.nodup
    apply (List.perm_ext_iff_of_nodup hnd (hnames.of_map _)).mpr
    intro a
    exact ⟨fun ha => hinv.mem a (by simp [ha]), fun ha => hempty.mp hnil a ha⟩
  · constructor
    · rintro ⟨sorted, hok⟩ a hcycle
      have ha := StartsBefore.mem_of_transGen hcycle
      have hsorted_a := hempty.mp (sortServices_eq_ok_iff.mp hok).1 a ha
      exact (not_mem_sortRun_iff hnames hfuel ha).mpr ⟨a, hcycle, .refl⟩ hsorted_a
    · intro hacyclic
      refine ⟨_, sortServices_eq_ok_iff.mpr ⟨hempty.mpr fun a ha => ?_, rfl⟩⟩
      by_contra hout
      obtain ⟨c, hc, -⟩ := (not_mem_sortRun_iff hnames hfuel ha).mp hout
      exact hacyclic c hc

/-- `web` starts after `db`, and `log` before `web`. -/
def webApp : AppInfo := ⟨"web".toList, [], ["db".toList]⟩
def dbApp : AppInfo := ⟨"db".toList, [], []⟩
def logApp : AppInfo := ⟨"log".toList, ["web".toList], []⟩

theorem web_starts_after_db_and_log :
    sortServices id 3 [webApp, dbApp, logApp] = .ok [dbApp, logApp, webApp] ∧
      ∀ b, StartsBefore [webApp, dbApp, logApp] b webApp → b ∈ [dbApp, logApp] :=
  ⟨by decide, fun b hb => ((sortServices_start_order id [webApp, dbApp, logApp] (by decide) 3 le_rfl).1
    _ (by decide)).2 [dbApp, logApp] webApp [] rfl b hb⟩

/-- For apps with distinct names, the error of `SortServices` names, once each, exactly the apps
that a cycle of constraints reaches: those on a cycle and those after one, in whatever order the
map is ranged over. -/
theorem sortServices_cycle_error (rangeOrder : List (List Char) → List (List Char))
    (hperm : ∀ l, (rangeOrder l).Perm l) (apps : List AppInfo)
    (hnames : (apps.map AppInfo.name).Nodup) (fuel : Nat) (hfuel : apps.length ≤ fuel) (msg : String)
    (h : sortServices rangeOrder fuel apps = .error msg) :
    ∃ names : List (List Char), names.Nodup ∧ msg = cycleError names ∧
      ∀ x, x ∈ names ↔ ∃ a ∈ apps, a.name = x ∧
        ∃ c, TransGen (StartsBefore apps) c c ∧ ReflTransGen (StartsBefore apps) c a := by
  obtain ⟨hinv, hq, hr, -⟩ := sortRun_finished hnames hfuel
  obtain ⟨-, rfl⟩ := sortServices_eq_error_iff.mp h
  refine ⟨_, (hperm _).nodup_iff.mpr hr.represents.nodup, rfl, fun x => ?_⟩
  rw [(hperm _).mem_iff, hr.represents.mem_keys_iff]
  apply exists_congr
  intro a
  apply and_congr_right
  intro ha
  apply and_congr_right
  intro _
  rw [← not_mem_sortRun_iff hnames hfuel ha, Ne, hinv.count_eq_zero_iff hq ha]

/-- `a` and `b` start after each other, and `c` after `a`. -/
def cycleApps : List AppInfo :=
  [⟨"a".toList, [], ["b".toList]⟩, ⟨"b".toList, [], ["a".toList]⟩, ⟨"c".toList, [], ["a".toList]⟩]

/-- The error names `c`, which lies on no cycle but after one. -/
theorem cycle_error_names_follower :
    sortServices id 3 cycleApps = .error (cycleError ["a".toList, "b".toList, "c".toList]) ∧
    ∃ names : List (List Char), names.Nodup ∧
      cycleError ["a".toList, "b".toList, "c".toList] = cycleError names ∧
      ∀ x, x ∈ names ↔ ∃ a ∈ cycleApps, a.name = x ∧
        ∃ c, TransGen (StartsBefore cycleApps) c c ∧ ReflTransGen (StartsBefore cycleApps) c a :=
  ⟨by decide, sortServices_cycle_error id List.Perm.refl cycleApps (by decide) 3 le_rfl _
    (by decide)⟩

end Snapd.Snap
