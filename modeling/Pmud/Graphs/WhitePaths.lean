import Pmud.Graphs.DFS
import Pmud.Graphs.Representation

/-! # White paths

Which vertices a depth-first search finds below a vertex.
-/

namespace Pmud.Graphs.DFS

open Foundation

/-- The interval of `v` lies in that of `u`, which may be the same. -/
def SearchData.Covers (data : SearchData) (u v : Nat) : Prop :=
  data.d u ≤ data.d v ∧ data.f v ≤ data.f u

/-- A path from `u` whose vertices are all found no earlier than `u`. -/
def SearchData.WhitePath (data : SearchData) (u : Nat) : Nat → Prop :=
  Relation.ReflTransGen (fun x y => data.pGraph.Edge x y ∧ data.d u ≤ data.d y) u

/-- The tree of `s` is `s` with all that lies below it along `pi`. -/
def SearchData.InTree (data : SearchData) (s : Nat) : Nat → Prop :=
  Relation.ReflTransGen (fun u v => data.pi v = (u : Int)) s

theorem SearchData.WhitePath.reachable {data : SearchData} {u v : Nat}
    (path : data.WhitePath u v) : data.pGraph.Reachable u v := by
  revert path
  apply Relation.ReflTransGen.mono
  intro x y step
  exact step.1

section Traversed

variable {Time : Type} {graph : Graph} {forest : Forest Nat} {state : State Time}
  (traversed : Traversed graph forest state)
include traversed

theorem Traversed.closed_edge {x y : Nat} (within : x < graph.V) (edge : graph.Edge x y) :
    state.d y < state.f x := by
  rcases traversed.span within with ⟨span, member, rfl, -, -, -, f⟩
  rw [f]
  exact traversed.closed span member y edge

theorem Traversed.nonneg {v : Nat} (within : v < graph.V) : 0 ≤ state.d v := by
  rcases traversed.span within with ⟨span, member, rfl, -, -, d, -⟩
  rw [d]
  exact Int.natCast_nonneg _

/-- A vertex is covered by itself and by its ancestors only. -/
theorem Traversed.covers_iff {u v : Nat} (uWithin : u < graph.V) (vWithin : v < graph.V) :
    (state.data graph).Covers u v ↔ u = v ∨ (state.data graph).Inside v u := by
  constructor
  · intro covers
    rcases covers with ⟨opens, closes⟩
    by_cases same : u = v
    · exact .inl same
    · have uOrdered := traversed.ordered uWithin
      have vOrdered := traversed.ordered vWithin
      have cases := traversed.laminar uWithin vWithin same
      simp only [SearchData.Inside, State.data] at opens closes cases ⊢
      omega
  · intro either
    rcases either with rfl | inside
    · exact ⟨Int.le_refl _, Int.le_refl _⟩
    · exact ⟨Int.le_of_lt inside.1, Int.le_of_lt inside.2⟩

/-- The induction step along a path: the search is not done with `x` before it
has found `y`, and what it finds in between lies below `x`. -/
theorem Traversed.covers_edge (inRange : graph.InRange) {u x y : Nat} (uWithin : u < graph.V)
    (xWithin : x < graph.V) (covers : (state.data graph).Covers u x) (edge : graph.Edge x y)
    (later : state.d u ≤ state.d y) : (state.data graph).Covers u y := by
  have yWithin := inRange.edge edge
  have found := traversed.closed_edge xWithin edge
  rw [traversed.covers_iff uWithin yWithin]
  by_cases same : u = y
  · exact .inl same
  · right
    have cases := traversed.laminar uWithin yWithin same
    simp only [SearchData.Covers, SearchData.Inside, State.data] at covers cases ⊢
    have uOrdered := traversed.ordered uWithin
    have yOrdered := traversed.ordered yWithin
    omega

theorem Traversed.covers_of_whitePath (inRange : graph.InRange) {u v : Nat}
    (uWithin : u < graph.V) (path : (state.data graph).WhitePath u v) :
    v < graph.V ∧ (state.data graph).Covers u v := by
  induction path with
  | refl => exact ⟨uWithin, (traversed.covers_iff uWithin uWithin).mpr (.inl rfl)⟩
  | tail before step induction =>
      rcases induction with ⟨xWithin, covers⟩
      rcases step with ⟨edge, later⟩
      exact ⟨inRange.edge edge, traversed.covers_edge inRange uWithin xWithin covers edge later⟩

/-- Down the tree the edges of `pi` are edges of the graph and the times rise. -/
theorem Traversed.whitePath_of_ancestor {u v : Nat} (uWithin : u < graph.V)
    (vWithin : v < graph.V) (ancestor : (state.data graph).Ancestor u v) :
    (state.data graph).WhitePath u v := by
  have rises : ∀ w < graph.V, (state.data graph).Ancestor u w → state.d u ≤ state.d w :=
    fun w within below => Int.le_of_lt ((traversed.inside_iff uWithin within).mpr below).1
  induction ancestor with
  | single step =>
      exact .single ⟨(traversed.parent_of_pi vWithin step).2.1, rises _ vWithin (.single step)⟩
  | tail before step induction =>
      rcases traversed.parent_of_pi vWithin step with ⟨above, edge, -⟩
      exact (induction above).tail ⟨edge, rises _ vWithin (before.tail step)⟩

theorem Traversed.covers_iff_whitePath (inRange : graph.InRange) {u v : Nat}
    (uWithin : u < graph.V) (vWithin : v < graph.V) :
    (state.data graph).Covers u v ↔ (state.data graph).WhitePath u v := by
  constructor
  · intro covers
    rcases (traversed.covers_iff uWithin vWithin).mp covers with rfl | inside
    · exact .refl
    · apply traversed.whitePath_of_ancestor uWithin vWithin
      exact (traversed.inside_iff uWithin vWithin).mp inside
  · intro path
    exact (traversed.covers_of_whitePath inRange uWithin path).2

theorem Traversed.inTree_iff {s v : Nat} (sWithin : s < graph.V) (vWithin : v < graph.V) :
    (state.data graph).InTree s v ↔ (state.data graph).Covers s v := by
  rw [traversed.covers_iff sWithin vWithin, traversed.inside_iff sWithin vWithin]
  unfold SearchData.InTree SearchData.Ancestor
  rw [Relation.reflTransGen_iff_eq_or_transGen, eq_comm]

/-- From a vertex that is found first every path is white. -/
theorem Traversed.whitePath_iff_reachable (inRange : graph.InRange) {s v : Nat}
    (start : state.d s = 0) :
    (state.data graph).WhitePath s v ↔ graph.Reachable s v := by
  constructor
  · exact fun path => path.reachable
  · apply Relation.ReflTransGen.mono
    intro x y edge
    refine ⟨edge, ?_⟩
    simp only [State.data, start]
    exact traversed.nonneg (inRange.edge edge)

end Traversed

/-- The search finds below a vertex what it can reach from there through
vertices that are still to be found. -/
theorem depthFirstSearch_whitePaths {graph : Graph} (inRange : graph.InRange) {s : Nat}
    (inside : s < graph.V) {fuel : Nat} (enough : graph.V ≤ fuel)
    (few : 2 * (graph.V : Int) ≤ intMax + 1) :
    ∃ data, depthFirstSearch fuel (some graph) s = some (.ok data) ∧ data.pGraph = graph ∧
      (∀ u < graph.V, ∀ v < graph.V, data.d u ≤ data.d v ∧ data.f v ≤ data.f u ↔
        data.WhitePath u v) ∧
      ∀ v < graph.V, data.InTree s v ↔ graph.Reachable s v := by
  rcases depthFirstSearch_traversed inRange inside enough few with
    ⟨children, rest, state, ends, traversed⟩
  refine ⟨state.data graph, ends, rfl, ?_, ?_⟩
  · intro u uWithin v vWithin
    exact traversed.covers_iff_whitePath inRange uWithin vWithin
  · intro v within
    calc
      (state.data graph).InTree s v ↔ (state.data graph).Covers s v :=
        traversed.inTree_iff inside within
      _ ↔ (state.data graph).WhitePath s v :=
        traversed.covers_iff_whitePath inRange inside within
      _ ↔ graph.Reachable s v :=
        traversed.whitePath_iff_reachable inRange (traversed.start rfl)

theorem depthFirstSearch_whitePaths_sampleGraph :
    ∃ data, depthFirstSearch 4 (some sampleGraph) 1 = some (.ok data) ∧
      data.pGraph = sampleGraph ∧
      (∀ u < 4, ∀ v < 4, data.d u ≤ data.d v ∧ data.f v ≤ data.f u ↔ data.WhitePath u v) ∧
      ∀ v < 4, data.InTree 1 v ↔ sampleGraph.Reachable 1 v :=
  depthFirstSearch_whitePaths sampleGraph_inRange (by decide) (by decide) (by decide)

/-! ## Where the clock runs over -/

/-- Edges from vertex 0 to all others. -/
def star (leaves : Nat) : Graph :=
  (List.range leaves).foldl (fun graph v => graph.addEdge 0 (v + 1))
    (.create (leaves + 1) .graphtypeDirected)

/-- A star whose first leaves are joined. -/
structure Joined (graph : Graph) (leaves count : Nat) : Prop
    extends graph.Representation (leaves + 1) where
  inRange : graph.InRange
  directed : graph.directed = .graphtypeDirected
  edge_iff : ∀ u v, graph.Edge u v ↔ u = 0 ∧ 0 < v ∧ v ≤ count

theorem Joined.create (leaves : Nat) :
    Joined (.create (leaves + 1) .graphtypeDirected) leaves 0 where
  toRepresentation := .create _ _
  inRange := .create _ _
  directed := rfl
  edge_iff := by
    intro u v
    simp only [Graph.Edge, Graph.create_vertex, Vertex.create, List.not_mem_nil, false_iff]
    omega

theorem Joined.addEdge {graph : Graph} {leaves count : Nat} (joined : Joined graph leaves count)
    (within : count < leaves) : Joined (graph.addEdge 0 (count + 1)) leaves (count + 1) := by
  have V : graph.V = leaves + 1 := joined.numVertices
  refine
    { toRepresentation := joined.toRepresentation.addEdge (by omega) (by omega)
      inRange := joined.inRange.addEdge (by omega) (by omega)
      directed := (Graph.addEdge_directed ..).trans joined.directed
      edge_iff := ?_ }
  intro u v
  rw [joined.edge_addEdge (by omega) (by omega), joined.edge_iff]
  simp only [joined.directed, reduceCtorEq, false_and, or_false]
  omega

theorem joined_star (leaves : Nat) : Joined (star leaves) leaves leaves := by
  have step : ∀ count ≤ leaves, Joined ((List.range count).foldl
      (fun graph v => graph.addEdge 0 (v + 1)) (.create (leaves + 1) .graphtypeDirected))
      leaves count := by
    intro count
    induction count with
    | zero => exact fun _ => .create leaves
    | succ count induction =>
        intro within
        rw [List.range_succ, List.foldl_concat]
        exact (induction (by omega)).addEdge (by omega)
  exact step leaves (Nat.le_refl leaves)

theorem star_V (leaves : Nat) : (star leaves).V = leaves + 1 := (joined_star leaves).numVertices

section Star

variable {Time : Type} {leaves : Nat} {children rest : Forest Nat} {state : State Time}
  (traversed : Traversed (star leaves) ((Forest.node 0 children .nil).append rest) state)
include traversed

theorem Traversed.leaf_before {v : Nat} (leaf : 0 < v) (within : v ≤ leaves) :
    state.f v < state.f 0 := by
  have joined := joined_star leaves
  have V := star_V leaves
  have path : (star leaves).Reachable 0 v :=
    .single ((joined.edge_iff 0 v).mpr ⟨rfl, leaf, within⟩)
  have white := (traversed.whitePath_iff_reachable joined.inRange (traversed.start rfl)).mpr path
  have covers := (traversed.covers_iff_whitePath joined.inRange (by omega) (by omega)).mpr white
  rcases (traversed.covers_iff (by omega) (by omega)).mp covers with same | inside
  · omega
  · exact inside.2

/-- The search is done with vertex 0 last of all. -/
theorem Traversed.centre_last : state.f 0 = 2 * leaves + 1 := by
  have V := star_V leaves
  have latest : ∀ v < (star leaves).V, state.f v ≤ state.f 0 := by
    intro v within
    rcases Nat.eq_zero_or_pos v with rfl | leaf
    · exact Int.le_refl _
    · exact Int.le_of_lt (traversed.leaf_before leaf (by omega))
  have all := fun time : Int => traversed.times.mem_iff (a := time)
  simp only [V, List.mem_append, List.mem_map, List.mem_range] at all latest
  have upper : state.f 0 ≤ 2 * leaves + 1 := by
    rcases (all (state.f 0)).mp (.inr ⟨0, by omega, rfl⟩) with ⟨time, bound, same⟩
    omega
  have lower : (2 * leaves + 1 : Int) ≤ state.f 0 := by
    rcases (all (2 * leaves + 1)).mpr ⟨2 * leaves + 1, by omega, by omega⟩ with
      ⟨v, within, time⟩ | ⟨v, within, time⟩
    · have ordered := traversed.ordered (u := v) (by omega)
      have bound := latest v within
      omega
    · have bound := latest v within
      omega
  omega

/-- Of two leaves one is done with two ticks earlier. -/
theorem Traversed.leaf_twoBefore (two : 2 ≤ leaves) :
    ∃ v, 0 < v ∧ v ≤ leaves ∧ state.f v ≤ 2 * leaves - 1 := by
  have V := star_V leaves
  have last := traversed.centre_last
  have first := traversed.leaf_before (v := 1) (by omega) (by omega)
  have second := traversed.leaf_before (v := 2) (by omega) two
  have firstOrdered := traversed.ordered (u := 1) (by omega)
  have secondOrdered := traversed.ordered (u := 2) (by omega)
  have apart := traversed.laminar (u := 1) (v := 2) (by omega) (by omega) (by decide)
  simp only [SearchData.Inside, State.data] at apart
  by_cases early : state.f 1 ≤ 2 * leaves - 1
  · exact ⟨1, by omega, by omega, early⟩
  · exact ⟨2, by omega, two, by omega⟩

end Star

/-- With `2 ^ 30` leaves the code is done with vertex 0 at a negative time, and with some leaf
at a positive one. -/
theorem depthFirstSearch_star {leaves fuel : Nat} (many : leaves = 1073741824)
    (enough : leaves + 1 ≤ fuel) :
    ∃ data, depthFirstSearch fuel (some (star leaves)) 0 = some (.ok data) ∧
      data.pGraph = star leaves ∧ data.f 0 < 0 ∧
      ∃ v, (star leaves).Edge 0 v ∧ data.d 0 ≤ data.d v ∧ 0 < data.f v := by
  have joined := joined_star leaves
  have V := star_V leaves
  rcases depthFirstSearch_narrow joined.inRange (s := 0) (by omega) (V ▸ enough) with
    ⟨children, rest, state, ends, traversed⟩
  rcases traversed.leaf_twoBefore (by omega) with ⟨v, leaf, within, early⟩
  have start := traversed.start rfl
  have last := traversed.centre_last
  have opened := traversed.nonneg (v := v) (by omega)
  have ordered := traversed.ordered (u := v) (by omega)
  have d : (state.d v).bmod Int32.size = state.d v :=
    bmod_of_fits opened (by simp only [intMax]; omega)
  have f : (state.f v).bmod Int32.size = state.f v :=
    bmod_of_fits (by omega) (by simp only [intMax]; omega)
  refine ⟨_, ends, rfl, ?_, v, (joined.edge_iff 0 v).mpr ⟨rfl, leaf, within⟩, ?_, ?_⟩
  · change (state.f 0).bmod Int32.size < 0
    rw [last, many]
    decide
  · change (state.d 0).bmod Int32.size ≤ (state.d v).bmod Int32.size
    rw [start, d]
    exact opened
  · change 0 < (state.f v).bmod Int32.size
    omega

/-- An edge to a leaf that is found later, with which the code seems to be done later too. -/
theorem not_whitePaths_of_manyVertices :
    (star 1073741824).InRange ∧
      ∃ data, depthFirstSearch 1073741825 (some (star 1073741824)) 0 = some (.ok data) ∧
        data.pGraph = star 1073741824 ∧
        ¬ ∀ u < (star 1073741824).V, ∀ v < (star 1073741824).V,
          data.d u ≤ data.d v ∧ data.f v ≤ data.f u ↔ data.WhitePath u v := by
  have joined := joined_star 1073741824
  rcases depthFirstSearch_star rfl (Nat.le_refl 1073741825) with
    ⟨data, ends, same, negative, v, edge, later, positive⟩
  refine ⟨joined.inRange, data, ends, same, ?_⟩
  intro covers
  have path : data.WhitePath 0 v := .single ⟨same ▸ edge, later⟩
  have vWithin := joined.inRange.edge edge
  have closes := ((covers 0 (Nat.zero_lt_of_lt vWithin) v vWithin).mpr path).2
  omega

end Pmud.Graphs.DFS
