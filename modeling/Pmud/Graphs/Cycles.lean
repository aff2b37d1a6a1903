import Pmud.Graphs.WhitePaths

/-! # Cycles

An edge either leads to a vertex that the search is done with earlier, or back
to a vertex that it is still at.
-/

namespace Pmud.Graphs

open Foundation

/-- A loop at one vertex counts. -/
def Graph.HasCycle (graph : Graph) : Prop := ∃ u, Relation.TransGen graph.Edge u u

theorem Graph.InRange.source {graph : Graph} (inRange : graph.InRange) {u v : Nat}
    (edge : graph.Edge u v) : u < graph.V := by
  rw [← inRange.length]
  by_contra outside
  unfold Edge vertex at edge
  rw [List.getD_eq_default _ _ (Nat.le_of_not_lt outside)] at edge
  cases edge

namespace DFS

/-- The edge leads back to the vertex itself or to one of its ancestors. -/
def SearchData.BackEdge (data : SearchData) (u v : Nat) : Prop :=
  data.pGraph.Edge u v ∧ data.Covers v u

section Traversed

variable {Time : Type} {graph : Graph} {forest : Forest Nat} {state : State Time}
  (traversed : Traversed graph forest state)
include traversed

theorem Traversed.finishes_or_back (inRange : graph.InRange) {u v : Nat}
    (edge : graph.Edge u v) : state.f v < state.f u ∨ (state.data graph).Covers v u := by
  have uWithin := inRange.source edge
  have vWithin := inRange.edge edge
  rw [traversed.covers_iff vWithin uWithin]
  by_cases same : v = u
  · exact .inr (.inl same)
  · have found := traversed.closed_edge uWithin edge
    have uOrdered := traversed.ordered uWithin
    have cases := traversed.laminar vWithin uWithin same
    simp only [SearchData.Inside, State.data] at cases ⊢
    omega

/-- Without back edges the search is done with the vertices of a path in the
reverse order, so that no path comes back to its start. -/
theorem Traversed.finishes_of_path (inRange : graph.InRange)
    (forward : ∀ u v, ¬ (state.data graph).BackEdge u v) {u v : Nat}
    (path : Relation.TransGen graph.Edge u v) : state.f v < state.f u := by
  have finishes : ∀ x y, graph.Edge x y → state.f y < state.f x := by
    intro x y edge
    rcases traversed.finishes_or_back inRange edge with earlier | covers
    · exact earlier
    · exact absurd ⟨edge, covers⟩ (forward x y)
  induction path with
  | single edge => exact finishes _ _ edge
  | tail before edge induction => exact (finishes _ _ edge).trans induction

theorem Traversed.cycle_of_back (inRange : graph.InRange) {u v : Nat}
    (back : (state.data graph).BackEdge u v) : Relation.TransGen graph.Edge u u := by
  rcases back with ⟨edge, covers⟩
  have path := (traversed.covers_iff_whitePath inRange (inRange.edge edge)
    (inRange.source edge)).mp covers
  exact .head' edge path.reachable

theorem Traversed.hasCycle_iff (inRange : graph.InRange) :
    graph.HasCycle ↔ ∃ u v, (state.data graph).BackEdge u v := by
  constructor
  · intro cyclic
    rcases cyclic with ⟨u, cycle⟩
    by_contra none
    have forward : ∀ x y, ¬ (state.data graph).BackEdge x y :=
      fun x y back => none ⟨x, y, back⟩
    exact absurd (traversed.finishes_of_path inRange forward cycle) (Int.lt_irrefl _)
  · intro found
    rcases found with ⟨u, v, back⟩
    exact ⟨u, traversed.cycle_of_back inRange back⟩

end Traversed

theorem Joined.acyclic {graph : Graph} {leaves count : Nat}
    (joined : Joined graph leaves count) : ¬ graph.HasCycle := by
  intro cyclic
  rcases cyclic with ⟨u, cycle⟩
  have ends : ∀ w, Relation.TransGen graph.Edge u w → u = 0 ∧ 0 < w := by
    intro w path
    induction path with
    | single edge =>
        rcases (joined.edge_iff _ _).mp edge with ⟨centre, leaf, -⟩
        exact ⟨centre, leaf⟩
    | tail _ edge induction =>
        rcases (joined.edge_iff _ _).mp edge with ⟨-, leaf, -⟩
        exact ⟨induction.1, leaf⟩
  have found := ends u cycle
  omega

theorem depthFirstSearch_cycles {graph : Graph} (inRange : graph.InRange) {s : Nat}
    (inside : s < graph.V) {fuel : Nat} (enough : graph.V ≤ fuel)
    (few : 2 * (graph.V : Int) ≤ intMax + 1) :
    ∃ data, depthFirstSearch fuel (some graph) s = some (.ok data) ∧
      (graph.HasCycle ↔
        ∃ u v, graph.Edge u v ∧ data.d v ≤ data.d u ∧ data.f u ≤ data.f v) ∧
      (¬ graph.HasCycle → ∀ u v, graph.Edge u v → data.f v < data.f u) := by
  rcases depthFirstSearch_traversed inRange inside enough few with
    ⟨children, rest, state, ends, traversed⟩
  have cycles := traversed.hasCycle_iff inRange
  refine ⟨state.data graph, ends, cycles, ?_⟩
  intro acyclic u v edge
  rcases traversed.finishes_or_back inRange edge with earlier | covers
  · exact earlier
  · exact absurd (cycles.mpr ⟨u, v, edge, covers⟩) acyclic

theorem depthFirstSearch_cycles_sampleGraph :
    ∃ data, depthFirstSearch 4 (some sampleGraph) 1 = some (.ok data) ∧
      (sampleGraph.HasCycle ↔
        ∃ u v, sampleGraph.Edge u v ∧ data.d v ≤ data.d u ∧ data.f u ≤ data.f v) ∧
      (¬ sampleGraph.HasCycle → ∀ u v, sampleGraph.Edge u v → data.f v < data.f u) :=
  depthFirstSearch_cycles sampleGraph_inRange (by decide) (by decide) (by decide)

/-- A star has no cycle, and yet the code seems to be done with a leaf after its centre. -/
theorem not_cycles_of_manyVertices :
    (star 1073741824).InRange ∧ ¬ (star 1073741824).HasCycle ∧
      ∃ data, depthFirstSearch 1073741825 (some (star 1073741824)) 0 = some (.ok data) ∧
        ¬ ∀ u v, (star 1073741824).Edge u v → data.f v < data.f u := by
  have joined := joined_star 1073741824
  rcases depthFirstSearch_star rfl (Nat.le_refl 1073741825) with
    ⟨data, ends, -, negative, v, edge, -, positive⟩
  refine ⟨joined.inRange, joined.acyclic, data, ends, ?_⟩
  intro finishes
  have earlier := finishes 0 v edge
  omega

end DFS

end Pmud.Graphs
