import Mathlib.Data.List.Sort
import Pmud.Graphs.Representation

/-! # Transposing

A graph without data is given by its lists of neighbours, and the transpose by
lists that are read off in the order of the vertices.
-/

namespace Pmud.Graphs

open Foundation

namespace Graph

/-! ## Graphs from lists of neighbours -/

def ofAdj (V : Nat) (directed : GraphType) (adj : Nat → List Nat) : Graph where
  vertices := (List.range V).map fun u => { index := u, data := none, adj := adj u }
  V := V
  directed := directed

/-- `Tabulated`, with no data at any vertex. -/
structure Plain (graph : Graph) (V : Nat) : Prop extends graph.Tabulated V where
  data : ∀ u < V, (graph.vertex u).data = none

theorem ofAdj_congr {V : Nat} {directed : GraphType} {first second : Nat → List Nat}
    (same : ∀ u < V, first u = second u) : ofAdj V directed first = ofAdj V directed second := by
  unfold ofAdj
  congr 1
  apply List.map_congr_left
  intro u member
  rw [same u (List.mem_range.mp member)]

theorem ofAdj_vertex {V u : Nat} (directed : GraphType) (adj : Nat → List Nat)
    (within : u < V) :
    (ofAdj V directed adj).vertex u = { index := u, data := none, adj := adj u } := by
  simp [vertex, ofAdj, List.getD_eq_getElem?_getD, within]

theorem ofAdj_edge {V u : Nat} {directed : GraphType} {adj : Nat → List Nat}
    (within : u < V) (v : Nat) : (ofAdj V directed adj).Edge u v ↔ v ∈ adj u := by
  rw [Edge, ofAdj_vertex directed adj within]

theorem Plain.ofAdj {V : Nat} (directed : GraphType) {adj : Nat → List Nat}
    (within : ∀ u < V, ∀ v ∈ adj u, v < V) (nodup : ∀ u < V, (adj u).Nodup) :
    (ofAdj V directed adj).Plain V where
  numVertices := rfl
  length := by simp [Graph.ofAdj]
  index u bound := by rw [ofAdj_vertex directed adj bound]
  adj u bound := by
    rw [ofAdj_vertex directed adj bound]
    exact within u bound
  nodup u bound := by
    rw [ofAdj_vertex directed adj bound]
    exact nodup u bound
  data u bound := by rw [ofAdj_vertex directed adj bound]

theorem Plain.create (V : Nat) (directed : GraphType) : (create V directed).Plain V where
  toTabulated := .create V directed
  data := by simp [create_vertex, Vertex.create]

section Plain

variable {graph : Graph} {V : Nat}

theorem Plain.addDirectedEdge (plain : graph.Plain V) {u v : Nat} (uWithin : u < V)
    (vWithin : v < V) : (graph.addDirectedEdge u v).Plain V where
  toTabulated := plain.toTabulated.addDirectedEdge uWithin vWithin
  data w bound := by
    rw [addDirectedEdge_vertex graph u v w (plain.length ▸ uWithin)]
    split
    · exact plain.data u uWithin
    · exact plain.data w bound

theorem Plain.addDirectedEdges (plain : graph.Plain V) {edges : List (Nat × Nat)}
    (within : ∀ edge ∈ edges, edge.1 < V ∧ edge.2 < V) :
    (graph.addDirectedEdges edges).Plain V := by
  induction edges generalizing graph with
  | nil => exact plain
  | cons edge rest induction =>
      rw [List.forall_mem_cons] at within
      exact induction (plain.addDirectedEdge within.1.1 within.1.2) within.2

/-- Nothing but the lists of neighbours is left to say. -/
theorem Plain.eq_ofAdj (plain : graph.Plain V) :
    graph = Graph.ofAdj V graph.directed fun u => (graph.vertex u).adj := by
  have vertices : graph.vertices =
      (Graph.ofAdj V graph.directed fun u => (graph.vertex u).adj).vertices := by
    rw [plain.vertices_eq]
    apply List.map_congr_left
    intro u member
    have within := List.mem_range.mp member
    have index := plain.index u within
    have data := plain.data u within
    cases read : graph.vertex u with
    | mk index data adj =>
        simp only [read] at *
        subst index data
        rfl
  calc graph = { vertices := graph.vertices, V := graph.numVertices,
                 directed := graph.directed } := rfl
    _ = Graph.ofAdj V graph.directed fun u => (graph.vertex u).adj := by
        rw [plain.numVertices, vertices]
        rfl

end Plain

/-! ## Reading the edges backwards -/

section Tabulated

variable {graph : Graph} {V : Nat} (tabulated : graph.Tabulated V)
include tabulated

theorem Tabulated.nodup_edges : graph.edges.Nodup := by
  rw [tabulated.edges_eq, List.nodup_flatMap]
  constructor
  · intro u member
    apply (tabulated.nodup u (List.mem_range.mp member)).map
    intro first second same
    exact (Prod.mk.inj same).2
  · refine (List.nodup_range (n := V)).imp ?_
    intro u w different edge first second
    rcases List.mem_map.mp first with ⟨x, -, rfl⟩
    rcases List.mem_map.mp second with ⟨y, -, same⟩
    exact different (Prod.mk.inj same).1.symm

/-- Who has `w` as a neighbour, in the order of the vertices. -/
theorem Tabulated.filter_swap (w : Nat) :
    ((graph.edges.map Prod.swap).filter (·.1 = w)).map Prod.snd =
      (List.range V).filter fun u => graph.Edge u w := by
  have block : ∀ u ∈ List.range V,
      ((((graph.vertex u).adj.map fun v => (u, v)).map Prod.swap).filter (·.1 = w)).map Prod.snd =
        if graph.Edge u w then [u] else [] := by
    intro u member
    rw [List.map_map, List.filter_map, List.map_map]
    by_cases edge : graph.Edge u w
    · have single := List.filter_eq_singleton id
        (by simpa using tabulated.nodup u (List.mem_range.mp member)) edge
      simp only [id_eq] at single
      simp [Function.comp_def, single, edge]
    · have none : (graph.vertex u).adj.filter (fun v => v = w) = [] := by
        rw [List.filter_eq_nil_iff]
        intro v there same
        exact edge (of_decide_eq_true same ▸ there)
      simp [Function.comp_def, none, edge]
  rw [tabulated.edges_eq, List.map_flatMap, List.filter_flatMap, List.map_flatMap,
    List.flatMap_congr block, List.flatMap_singleton_or_nil]

theorem Tabulated.copy_eq_ofAdj :
    graph.copy = ofAdj V graph.directed fun u => (graph.vertex u).adj := by
  have plain : graph.copy.Plain V := by
    rw [copy_eq, show graph.V = V from tabulated.numVertices]
    exact (Plain.create V graph.directed).addDirectedEdges tabulated.edges_within
  rw [plain.eq_ofAdj, copy_directed]
  exact ofAdj_congr fun u within => tabulated.copy_adj u

end Tabulated

/-! ## The transpose -/

section Transpose

variable {graph : Graph} {V : Nat} (tabulated : graph.Tabulated V)
include tabulated

/-- The lists of the transpose, whatever the order of the lists before. -/
theorem Tabulated.transpose_eq_ofAdj (directed : graph.directed = .graphtypeDirected) :
    graph.transpose =
      ofAdj V .graphtypeDirected fun w => (List.range V).filter fun u => graph.Edge u w := by
  let cleared := { graph.copy with vertices := graph.copy.vertices.map Vertex.clearAdj }
  have empty : cleared = Graph.create V .graphtypeDirected := by
    simp only [cleared]
    rw [tabulated.copy_eq_ofAdj, directed]
    simp [Graph.ofAdj, Graph.create, Vertex.clearAdj, Vertex.create, Function.comp_def]
  have within : ∀ edge ∈ graph.edges.map Prod.swap, edge.1 < V ∧ edge.2 < V := by
    intro edge member
    rcases List.mem_map.mp member with ⟨original, there, rfl⟩
    exact (tabulated.edges_within original there).symm
  have plain := (Plain.create V .graphtypeDirected).addDirectedEdges within
  rw [transpose_of_directed directed]
  change cleared.addDirectedEdges _ = _
  rw [empty, plain.eq_ofAdj, addDirectedEdges_directed]
  apply ofAdj_congr
  intro w bound
  rw [addDirectedEdges_adj w fun edge member => by
      rw [(Plain.create V .graphtypeDirected).length]
      exact (within edge member).1,
    tabulated.filter_swap, create_vertex]
  exact List.foldl_addNew_of_nodup (List.nodup_range.filter _)

theorem Tabulated.plain_transpose (directed : graph.directed = .graphtypeDirected) :
    graph.transpose.Plain V := by
  rw [tabulated.transpose_eq_ofAdj directed]
  apply Plain.ofAdj
  · intro u bound v member
    exact List.mem_range.mp (List.mem_filter.mp member).1
  · exact fun u bound => List.nodup_range.filter _

theorem Tabulated.edge_transpose (directed : graph.directed = .graphtypeDirected) (u v : Nat) :
    graph.transpose.Edge u v ↔ graph.Edge v u := by
  by_cases within : u < V
  · rw [tabulated.transpose_eq_ofAdj directed, ofAdj_edge within, List.mem_filter]
    constructor
    · exact fun found => of_decide_eq_true found.2
    · exact fun edge =>
        ⟨List.mem_range.mpr (tabulated.edge_bounds edge).1, decide_eq_true edge⟩
  · constructor
    · intro edge
      exact absurd ((tabulated.plain_transpose directed).edge_bounds edge).1 within
    · intro edge
      exact absurd (tabulated.edge_bounds edge).2 within

theorem Tabulated.edges_transpose (directed : graph.directed = .graphtypeDirected) :
    graph.transpose.edges.Perm (graph.edges.map Prod.swap) := by
  have reversed := tabulated.plain_transpose directed
  rw [List.perm_ext_iff_of_nodup reversed.nodup_edges
    (tabulated.nodup_edges.map Prod.swap_injective)]
  intro edge
  rw [reversed.mem_edges edge.1 edge.2, tabulated.edge_transpose directed,
    ← tabulated.mem_edges]
  constructor
  · exact fun member => List.mem_map.mpr ⟨_, member, rfl⟩
  · intro member
    rcases List.mem_map.mp member with ⟨original, there, rfl⟩
    exact there

theorem Tabulated.pairwise_transpose (directed : graph.directed = .graphtypeDirected) {u : Nat}
    (within : u < V) : (graph.transpose.vertex u).adj.Pairwise (· < ·) := by
  rw [tabulated.transpose_eq_ofAdj directed, ofAdj_vertex _ _ within]
  exact List.pairwise_lt_range.filter _

/-- The edges are the same again, in the order of the vertices. -/
theorem Tabulated.transpose_transpose (directed : graph.directed = .graphtypeDirected) :
    graph.transpose.transpose =
      ofAdj V .graphtypeDirected fun u => (graph.vertex u).adj.mergeSort (· ≤ ·) := by
  have reversed := tabulated.plain_transpose directed
  rw [reversed.transpose_eq_ofAdj (by simpa using directed)]
  apply ofAdj_congr
  intro u within
  simp only [tabulated.edge_transpose directed]
  have sorted := List.pairwise_mergeSort' (· ≤ ·) (graph.vertex u).adj
  have counted : ((List.range V).filter fun v => graph.Edge u v).Pairwise (· ≤ ·) :=
    (List.pairwise_lt_range.imp Nat.le_of_lt).filter _
  apply List.Perm.eq_of_pairwise' counted sorted
  have same : ((List.range V).filter fun v => graph.Edge u v).Perm (graph.vertex u).adj := by
    rw [List.perm_ext_iff_of_nodup (List.nodup_range.filter _) (tabulated.nodup u within)]
    intro v
    rw [List.mem_filter, List.mem_range, decide_eq_true_iff]
    exact ⟨And.right, fun edge => ⟨tabulated.adj u within v edge, edge⟩⟩
  exact same.trans (List.mergeSort_perm _ _).symm

theorem Tabulated.transpose_thrice (directed : graph.directed = .graphtypeDirected) :
    graph.transpose.transpose.transpose = graph.transpose := by
  have reversed := tabulated.plain_transpose directed
  have again := reversed.plain_transpose (by simpa using directed)
  calc graph.transpose.transpose.transpose
      = ofAdj V .graphtypeDirected fun w =>
          (List.range V).filter fun u => graph.transpose.transpose.Edge u w :=
        again.transpose_eq_ofAdj (by simpa using directed)
    _ = ofAdj V .graphtypeDirected fun w => (List.range V).filter fun u => graph.Edge u w := by
        simp only [reversed.edge_transpose (by simpa using directed),
          tabulated.edge_transpose directed]
    _ = graph.transpose := (tabulated.transpose_eq_ofAdj directed).symm

end Transpose

/-! ## Graphs as a program builds them -/

/-- What the constructor and `addEdge` build. -/
inductive Built (V : Nat) (directed : GraphType) : Graph → Prop
  | create : Built V directed (Graph.create V directed)
  | addEdge {graph : Graph} {u v : Nat} (before : Built V directed graph) (uWithin : u < V)
      (vWithin : v < V) : Built V directed (graph.addEdge u v)

section Built

variable {graph : Graph} {V : Nat} {directed : GraphType} (built : Built V directed graph)
include built

theorem Built.directed_eq : graph.directed = directed := by
  induction built with
  | create => rfl
  | addEdge before uWithin vWithin induction => rw [addEdge_directed, induction]

theorem Built.representation : graph.Representation V := by
  induction built with
  | create => exact .create V directed
  | addEdge before uWithin vWithin induction => exact induction.addEdge uWithin vWithin

theorem Built.plain : graph.Plain V := by
  induction built with
  | create => exact .create V directed
  | addEdge before uWithin vWithin induction =>
      unfold Graph.addEdge
      have added := induction.addDirectedEdge uWithin vWithin
      split
      · exact added.addDirectedEdge vWithin uWithin
      · exact added

end Built

/-- Every list of neighbours in ascending order. -/
def sortAdj (graph : Graph) : Graph :=
  { graph with
    vertices := graph.vertices.map fun x => { x with adj := x.adj.mergeSort (· ≤ ·) } }

theorem ofAdj_sortAdj (V : Nat) (directed : GraphType) (adj : Nat → List Nat) :
    (ofAdj V directed adj).sortAdj = ofAdj V directed fun u => (adj u).mergeSort (· ≤ ·) := by
  simp [ofAdj, sortAdj, Function.comp_def]

theorem transpose_reverses {V : Nat} {directed : GraphType} {graph : Graph}
    (built : Built V directed graph) :
    operate [graph] (.transpose 0) = some [graph, graph.transpose] ∧
      (directed = .graphtypeDirected →
        (∀ u v, v ∈ (graph.transpose.vertex u).adj ↔ u ∈ (graph.vertex v).adj) ∧
        graph.transpose.edges.length = graph.edges.length ∧
        (∀ u < V, (graph.transpose.vertex u).adj.Pairwise (· < ·)) ∧
        graph.transpose.transpose = graph.sortAdj ∧
        graph.transpose.transpose.transpose = graph.transpose) ∧
      (directed = .graphtypeUndirected →
        graph.transpose = graph ∧
        ∀ u v, v ∈ (graph.transpose.vertex u).adj ↔ u ∈ (graph.transpose.vertex v).adj) := by
  have representation := built.representation
  have tabulated := representation.toTabulated
  have plain := built.plain.eq_ofAdj
  refine ⟨rfl, ?_, ?_⟩
  · intro isDirected
    have type := built.directed_eq.trans isDirected
    have kept := (tabulated.edges_transpose type).length_eq
    have sorted : graph.transpose.transpose = graph.sortAdj := by
      rw [tabulated.transpose_transpose type, plain, ofAdj_sortAdj, ← plain, type]
    refine ⟨tabulated.edge_transpose type, ?_, ?_, sorted, tabulated.transpose_thrice type⟩
    · simpa using kept
    · exact fun u within => tabulated.pairwise_transpose type within
  · intro isUndirected
    have type := built.directed_eq.trans isUndirected
    have same : graph.transpose = graph := by
      rw [transpose_of_undirected type, tabulated.copy_eq_ofAdj, ← plain]
    refine ⟨same, ?_⟩
    rw [same]
    exact representation.symmetric type

theorem transpose_reverses_twoWay :
    (((sampleGraph.addEdge 2 1).transpose.transpose = (sampleGraph.addEdge 2 1).sortAdj) ∧
      (sampleGraph.addEdge 2 1).transpose.edges.length = 5) := by
  have built : Built 4 .graphtypeDirected (sampleGraph.addEdge 2 1) :=
    .addEdge (.addEdge (.addEdge (.addEdge (.addEdge .create (by decide) (by decide))
      (by decide) (by decide)) (by decide) (by decide)) (by decide) (by decide))
      (by decide) (by decide)
  rcases (transpose_reverses built).2.1 rfl with ⟨-, kept, -, sorted, -⟩
  exact ⟨sorted, kept⟩

example : (sampleGraph.addEdge 2 1).transpose.vertices.map Vertex.adj =
    [[2], [0, 2], [1, 2], []] := by
  decide

end Graph

end Pmud.Graphs
