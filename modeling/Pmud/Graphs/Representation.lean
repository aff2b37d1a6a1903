import Pmud.Foundation.Lists
import Pmud.Foundation.Transition
import Pmud.Graphs.Graph

/-! # The representation of a graph

What holds of every graph that is made by adding edges, copying and transposing.
-/

namespace Pmud.Graphs

open Foundation

namespace Graph

/-- Edges as pairs, in the order of the vertices and of their neighbours. -/
def edges (graph : Graph) : List (Nat × Nat) :=
  graph.vertices.flatMap fun x => x.adj.map fun y => (x.index, y)

def addDirectedEdges (graph : Graph) (edges : List (Nat × Nat)) : Graph :=
  edges.foldl (fun graph edge => graph.addDirectedEdge edge.1 edge.2) graph

@[simp]
theorem addDirectedEdges_nil (graph : Graph) : graph.addDirectedEdges [] = graph := rfl

@[simp]
theorem addDirectedEdges_cons (graph : Graph) (edge : Nat × Nat) (rest : List (Nat × Nat)) :
    graph.addDirectedEdges (edge :: rest) =
      (graph.addDirectedEdge edge.1 edge.2).addDirectedEdges rest := rfl

/-- Two loops, over the vertices and over the neighbours of each, are one loop
over the edges. -/
theorem foldl_edges {α : Type} (graph : Graph) (body : α → Nat × Nat → α) (start : α) :
    graph.vertices.foldl
      (fun state x => x.adj.foldl (fun state y => body state (x.index, y)) state) start =
      graph.edges.foldl body start := by
  rw [edges, List.foldl_flatMap]
  congr
  funext state x
  rw [List.foldl_map]

theorem copy_eq (graph : Graph) :
    graph.copy = (create graph.V graph.directed).addDirectedEdges graph.edges :=
  foldl_edges graph (fun (state : Graph) edge => state.addDirectedEdge edge.1 edge.2) _

theorem transpose_of_directed {graph : Graph} (directed : graph.directed = .graphtypeDirected) :
    graph.transpose =
      { graph.copy with vertices := graph.copy.vertices.map Vertex.clearAdj }.addDirectedEdges
        (graph.edges.map Prod.swap) := by
  rw [addDirectedEdges, List.foldl_map, transpose, if_neg (by simp [directed])]
  exact foldl_edges graph (fun (state : Graph) edge => state.addDirectedEdge edge.2 edge.1) _

/-! ## Reading back -/

@[simp]
theorem addDirectedEdge_V (graph : Graph) (u v : Nat) : (graph.addDirectedEdge u v).V = graph.V :=
  rfl

@[simp]
theorem addDirectedEdge_directed (graph : Graph) (u v : Nat) :
    (graph.addDirectedEdge u v).directed = graph.directed := rfl

@[simp]
theorem addDirectedEdge_length (graph : Graph) (u v : Nat) :
    (graph.addDirectedEdge u v).vertices.length = graph.vertices.length := by
  simp [addDirectedEdge]

theorem addDirectedEdge_vertex (graph : Graph) (u v w : Nat)
    (within : u < graph.vertices.length) :
    (graph.addDirectedEdge u v).vertex w =
      if u = w then { graph.vertex u with adj := List.addNew (graph.vertex u).adj v }
      else graph.vertex w := by
  unfold vertex addDirectedEdge
  rw [List.getD_eq_getElem?_getD, List.getElem?_modify]
  by_cases same : u = w
  · subst same
    simp only [List.getElem?_eq_getElem within, List.getD_eq_getElem _ _ within, List.addNew,
      Vertex.addAdj]
    by_cases present : v ∈ graph.vertices[u].adj
    · simp [present]
    · simp [present]
  · simp [same]

@[simp]
theorem addDirectedEdge_index (graph : Graph) (u v w : Nat)
    (within : u < graph.vertices.length) :
    ((graph.addDirectedEdge u v).vertex w).index = (graph.vertex w).index := by
  rw [addDirectedEdge_vertex graph u v w within]
  split
  · next same => rw [same]
  · rfl

theorem addDirectedEdge_adj (graph : Graph) (u v w : Nat)
    (within : u < graph.vertices.length) :
    ((graph.addDirectedEdge u v).vertex w).adj =
      if u = w then List.addNew (graph.vertex w).adj v else (graph.vertex w).adj := by
  rw [addDirectedEdge_vertex graph u v w within]
  split
  · next same => rw [same]
  · rfl

theorem addDirectedEdges_adj {graph : Graph} {edges : List (Nat × Nat)} (w : Nat)
    (within : ∀ edge ∈ edges, edge.1 < graph.vertices.length) :
    ((graph.addDirectedEdges edges).vertex w).adj =
      ((edges.filter (·.1 = w)).map Prod.snd).foldl List.addNew (graph.vertex w).adj := by
  induction edges generalizing graph with
  | nil => rfl
  | cons edge rest induction =>
      rw [List.forall_mem_cons] at within
      rcases within with ⟨here, later⟩
      rw [addDirectedEdges_cons, induction (by simpa using later),
        addDirectedEdge_adj graph _ _ _ here]
      by_cases same : edge.1 = w
      · simp [same]
      · simp [same]

/-! ## The invariant -/

/-- `V` vertices with their own indices, and lists of neighbours among them that
hold no vertex twice. -/
structure Tabulated (graph : Graph) (V : Nat) : Prop where
  numVertices : graph.numVertices = V
  length : graph.vertices.length = V
  index : ∀ u < V, (graph.vertex u).index = u
  adj : ∀ u < V, ∀ v ∈ (graph.vertex u).adj, v < V
  nodup : ∀ u < V, (graph.vertex u).adj.Nodup

structure Representation (graph : Graph) (V : Nat) : Prop extends graph.Tabulated V where
  symmetric : graph.directed = .graphtypeUndirected →
    ∀ u v, graph.Edge u v ↔ graph.Edge v u

section Tabulated

variable {graph : Graph} {V : Nat} (tabulated : graph.Tabulated V)

theorem create_vertex (V u : Nat) (directed : GraphType) :
    (create V directed).vertex u = .create u := by
  unfold vertex create
  by_cases within : u < V
  · simp [List.getD_eq_getElem?_getD, within]
  · simp [List.getD_eq_getElem?_getD, within]

theorem Tabulated.create (V : Nat) (directed : GraphType) :
    (create V directed).Tabulated V where
  numVertices := rfl
  length := by simp [Graph.create]
  index := by simp [create_vertex, Vertex.create]
  adj := by simp [create_vertex, Vertex.create]
  nodup := by simp [create_vertex, Vertex.create]

include tabulated

theorem Tabulated.addDirectedEdge {u v : Nat} (uWithin : u < V) (vWithin : v < V) :
    (graph.addDirectedEdge u v).Tabulated V := by
  have within : u < graph.vertices.length := tabulated.length ▸ uWithin
  refine
    { numVertices := tabulated.numVertices
      length := by simpa using tabulated.length
      index := fun w bound => by simpa [within] using tabulated.index w bound
      adj := ?_
      nodup := ?_ }
  · intro w bound x member
    rw [addDirectedEdge_adj graph u v w within] at member
    split at member
    · rcases (List.mem_addNew _ _ _).mp member with there | rfl
      · exact tabulated.adj w bound x there
      · exact vWithin
    · exact tabulated.adj w bound x member
  · intro w bound
    rw [addDirectedEdge_adj graph u v w within]
    split
    · exact List.nodup_addNew (tabulated.nodup w bound) v
    · exact tabulated.nodup w bound

theorem Tabulated.addDirectedEdges {edges : List (Nat × Nat)}
    (within : ∀ edge ∈ edges, edge.1 < V ∧ edge.2 < V) :
    (graph.addDirectedEdges edges).Tabulated V := by
  induction edges generalizing graph with
  | nil => exact tabulated
  | cons edge rest induction =>
      rw [List.forall_mem_cons] at within
      exact induction (tabulated.addDirectedEdge within.1.1 within.1.2) within.2

theorem Tabulated.edge_bounds {u v : Nat} (edge : graph.Edge u v) : u < V ∧ v < V := by
  by_cases within : u < V
  · exact ⟨within, tabulated.adj u within v edge⟩
  · unfold Edge vertex at edge
    rw [List.getD_eq_default _ _ (by rw [tabulated.length]; omega)] at edge
    cases edge

theorem Tabulated.vertices_eq :
    graph.vertices = (List.range V).map graph.vertex := by
  apply List.ext_getElem
  · simp [tabulated.length]
  · intro u left right
    simp [vertex, left]

theorem Tabulated.edges_eq :
    graph.edges = (List.range V).flatMap fun u => (graph.vertex u).adj.map fun v => (u, v) := by
  rw [edges, tabulated.vertices_eq, List.flatMap_map]
  apply List.flatMap_congr
  intro u member
  rw [tabulated.index u (List.mem_range.mp member)]

theorem Tabulated.mem_edges (u v : Nat) : (u, v) ∈ graph.edges ↔ graph.Edge u v := by
  rw [tabulated.edges_eq, List.mem_flatMap]
  constructor
  · intro found
    rcases found with ⟨x, -, member⟩
    rcases List.mem_map.mp member with ⟨y, edge, same⟩
    cases same
    exact edge
  · intro edge
    exact ⟨u, List.mem_range.mpr (tabulated.edge_bounds edge).1, List.mem_map_of_mem edge⟩

/-- The neighbours of a vertex, picked from all edges. -/
theorem Tabulated.filter_edges {u : Nat} (within : u < V) :
    (graph.edges.filter (·.1 = u)).map Prod.snd = (graph.vertex u).adj := by
  have block : ∀ x, (((graph.vertex x).adj.map fun y => (x, y)).filter (·.1 = u)).map Prod.snd =
      if x = u then (graph.vertex x).adj else [] := by
    intro x
    by_cases same : x = u
    · simp [same, List.filter_map, Function.comp_def]
    · simp [same]
  rw [tabulated.edges_eq, List.filter_flatMap, List.map_flatMap]
  simp only [block]
  exact List.flatMap_single _ List.nodup_range (List.mem_range.mpr within)

theorem Tabulated.edges_within : ∀ edge ∈ graph.edges, edge.1 < V ∧ edge.2 < V := by
  intro edge member
  exact tabulated.edge_bounds ((tabulated.mem_edges edge.1 edge.2).mp member)

theorem Tabulated.copy : graph.copy.Tabulated V := by
  rw [copy_eq, show graph.V = V from tabulated.numVertices]
  exact (Tabulated.create V graph.directed).addDirectedEdges tabulated.edges_within

/-- The edges come back one by one through the test for a double, which lets
all of them pass since there is none. -/
theorem Tabulated.copy_adj (u : Nat) : (graph.copy.vertex u).adj = (graph.vertex u).adj := by
  by_cases within : u < V
  · rw [copy_eq, addDirectedEdges_adj u, create_vertex, tabulated.filter_edges within]
    · exact List.foldl_addNew_of_nodup (tabulated.nodup u within)
    · intro edge member
      rw [(Tabulated.create graph.V graph.directed).length, show graph.V = V from
        tabulated.numVertices]
      exact (tabulated.edges_within edge member).1
  · have outside : ∀ other : Graph, other.Tabulated V → (other.vertex u).adj = [] := by
      intro other holds
      rw [vertex, List.getD_eq_default _ _ (by rw [holds.length]; omega)]
      rfl
    rw [outside _ tabulated.copy, outside _ tabulated]

theorem Tabulated.clearAdj :
    Tabulated { graph with vertices := graph.vertices.map Vertex.clearAdj } V := by
  have cleared : ∀ u < V, vertex { graph with vertices := graph.vertices.map Vertex.clearAdj } u =
      (graph.vertex u).clearAdj := by
    intro u within
    have bound : u < graph.vertices.length := tabulated.length ▸ within
    simp [vertex, bound]
  refine
    { numVertices := tabulated.numVertices
      length := by simpa using tabulated.length
      index := ?_
      adj := ?_
      nodup := ?_ }
  all_goals
    intro u within
    rw [cleared u within]
  · exact tabulated.index u within
  · simp [Vertex.clearAdj]
  · simp [Vertex.clearAdj]

theorem Tabulated.edge_addDirectedEdge {u : Nat} (v : Nat) (within : u < V) (x y : Nat) :
    (graph.addDirectedEdge u v).Edge x y ↔ graph.Edge x y ∨ (x = u ∧ y = v) := by
  unfold Edge
  rw [addDirectedEdge_adj graph u v x (tabulated.length ▸ within)]
  split
  · next same =>
    subst same
    simp
  · next different => simp [Ne.symm different]

/-- What `addEdge` adds. -/
theorem Tabulated.edge_addEdge {u v : Nat} (uWithin : u < V) (vWithin : v < V) (x y : Nat) :
    (graph.addEdge u v).Edge x y ↔ graph.Edge x y ∨ (x = u ∧ y = v) ∨
      (graph.directed = .graphtypeUndirected ∧ x = v ∧ y = u) := by
  unfold addEdge
  split
  · next undirected =>
    rw [(tabulated.addDirectedEdge uWithin vWithin).edge_addDirectedEdge u vWithin,
      tabulated.edge_addDirectedEdge v uWithin]
    simp [undirected, or_assoc]
  · next directed =>
    rw [tabulated.edge_addDirectedEdge v uWithin]
    simp [directed]

end Tabulated

/-! ## The operations -/

section Representation

variable {graph : Graph} {V : Nat}

@[simp]
theorem addDirectedEdges_directed (graph : Graph) (edges : List (Nat × Nat)) :
    (graph.addDirectedEdges edges).directed = graph.directed := by
  induction edges generalizing graph with
  | nil => rfl
  | cons edge rest induction => exact induction _

@[simp]
theorem addEdge_directed (graph : Graph) (u v : Nat) :
    (graph.addEdge u v).directed = graph.directed := by
  unfold addEdge
  split <;> rfl

@[simp]
theorem copy_directed (graph : Graph) : graph.copy.directed = graph.directed := by
  rw [copy_eq, addDirectedEdges_directed]
  rfl

theorem transpose_of_undirected (undirected : graph.directed = .graphtypeUndirected) :
    graph.transpose = graph.copy := by
  rw [transpose, if_pos undirected]

@[simp]
theorem transpose_directed (graph : Graph) : graph.transpose.directed = graph.directed := by
  cases directed : graph.directed with
  | graphtypeDirected =>
      rw [transpose_of_directed directed, addDirectedEdges_directed]
      simp [directed]
  | graphtypeUndirected => simp [transpose_of_undirected directed, directed]

theorem Representation.create (V : Nat) (directed : GraphType) :
    (create V directed).Representation V where
  toTabulated := .create V directed
  symmetric := by simp [Edge, create_vertex, Vertex.create]

variable (representation : graph.Representation V)
include representation

theorem Representation.addEdge {u v : Nat} (uWithin : u < V) (vWithin : v < V) :
    (graph.addEdge u v).Representation V where
  toTabulated := by
    unfold Graph.addEdge
    have added := representation.addDirectedEdge uWithin vWithin
    split
    · exact added.addDirectedEdge vWithin uWithin
    · exact added
  symmetric := by
    intro undirected x y
    rw [addEdge_directed] at undirected
    rw [representation.edge_addEdge uWithin vWithin, representation.edge_addEdge uWithin vWithin,
      representation.symmetric undirected x y]
    tauto

theorem Representation.copy : graph.copy.Representation V where
  toTabulated := representation.toTabulated.copy
  symmetric := by
    intro undirected u v
    rw [copy_directed] at undirected
    unfold Edge
    rw [representation.copy_adj, representation.copy_adj]
    exact representation.symmetric undirected u v

theorem Representation.transpose : graph.transpose.Representation V := by
  cases directed : graph.directed with
  | graphtypeUndirected =>
      rw [transpose_of_undirected directed]
      exact representation.copy
  | graphtypeDirected =>
      refine { toTabulated := ?_, symmetric := by simp [directed] }
      rw [transpose_of_directed directed]
      apply representation.copy.clearAdj.addDirectedEdges
      intro edge member
      rcases List.mem_map.mp member with ⟨original, originalMember, rfl⟩
      exact (representation.edges_within original originalMember).symm

end Representation

end Graph

/-- What a program does with the graphs it holds. -/
inductive Operation
  | addEdge (graph u v : Nat)
  | copy (graph : Nat)
  | transpose (graph : Nat)
  deriving DecidableEq, Repr

/-- A copy and a transpose are held beside the graph they are made from. -/
def operate : StepFunction (List Graph) Operation
  | graphs, .addEdge which u v =>
      graphs[which]?.bind fun graph =>
        if u < graph.numVertices ∧ v < graph.numVertices then
          some (graphs.set which (graph.addEdge u v))
        else none
  | graphs, .copy which => graphs[which]?.map fun graph => graphs ++ [graph.copy]
  | graphs, .transpose which => graphs[which]?.map fun graph => graphs ++ [graph.transpose]

/-- What holds of each graph in play. -/
def Played (V : Nat) (directed : GraphType) (graphs : List Graph) : Prop :=
  ∀ graph ∈ graphs, graph.Representation V ∧ graph.directed = directed

theorem Played.append {V : Nat} {directed : GraphType} {graphs : List Graph} {graph : Graph}
    (played : Played V directed graphs) (representation : graph.Representation V)
    (type : graph.directed = directed) : Played V directed (graphs ++ [graph]) := by
  intro other member
  rcases List.mem_append.mp member with there | new
  · exact played other there
  · rw [List.mem_singleton.mp new]
    exact ⟨representation, type⟩

theorem Played.operate {V : Nat} {directed : GraphType} {graphs next : List Graph}
    {operation : Operation} (played : Played V directed graphs)
    (taken : operate graphs operation = some next) : Played V directed next := by
  cases operation with
  | addEdge which u v =>
      simp only [Graphs.operate, Option.bind_eq_some_iff, Option.ite_none_right_eq_some,
        Option.some.injEq] at taken
      rcases taken with ⟨changed, found, within, rfl⟩
      rcases played changed (List.mem_of_getElem? found) with ⟨before, type⟩
      rw [before.numVertices] at within
      intro graph member
      rcases List.mem_or_eq_of_mem_set member with there | rfl
      · exact played graph there
      · exact ⟨before.addEdge within.1 within.2, by simpa using type⟩
  | copy which =>
      simp only [Graphs.operate, Option.map_eq_some_iff] at taken
      rcases taken with ⟨original, found, rfl⟩
      rcases played original (List.mem_of_getElem? found) with ⟨before, type⟩
      exact played.append before.copy (by simpa using type)
  | transpose which =>
      simp only [Graphs.operate, Option.map_eq_some_iff] at taken
      rcases taken with ⟨original, found, rfl⟩
      rcases played original (List.mem_of_getElem? found) with ⟨before, type⟩
      exact played.append before.transpose (by simpa using type)

theorem operate_played (V : Nat) (directed : GraphType) (operations : List Operation) :
    operate.Throughout (Played V directed) [Graph.create V directed] operations := by
  apply StepFunction.throughout_of_preserved
  · exact fun graphs operation next played taken => played.operate taken
  · intro graph member
    rw [List.mem_singleton.mp member]
    exact ⟨.create V directed, rfl⟩

theorem operate_representation (V : Nat) (directed : GraphType) (operations : List Operation) :
    operate.Throughout
      (fun graphs => ∀ graph ∈ graphs,
        graph.Representation V ∧ graph.directed = directed ∧
        (∀ u < V, ∀ v < V, ∀ x y, (graph.addEdge u v).Edge x y ↔
          graph.Edge x y ∨ (x = u ∧ y = v) ∨
            (directed = .graphtypeUndirected ∧ x = v ∧ y = u)) ∧
        ∀ u, (graph.copy.vertex u).adj = (graph.vertex u).adj)
      [Graph.create V directed] operations := by
  refine StepFunction.Throughout.mono operate ?_ (operate_played V directed operations)
  intro graphs played graph member
  rcases played graph member with ⟨holds, rfl⟩
  exact ⟨holds, rfl, fun u uWithin v vWithin => holds.edge_addEdge uWithin vWithin,
    holds.copy_adj⟩

example : (operate.execute [.create 2 .graphtypeUndirected]
    [.addEdge 0 0 1, .addEdge 0 1 1, .copy 0]).map (fun graphs =>
      graphs.map fun graph => graph.vertices.map Vertex.adj) =
        some [[[1], [0, 1]], [[1], [0, 1]]] := by
  decide

end Pmud.Graphs
