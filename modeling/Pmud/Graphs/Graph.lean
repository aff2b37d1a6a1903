import Mathlib.Data.List.GetD
import Mathlib.Logic.Relation

/-! # Graphs

`graph/include/vertex.h` and `graph/include/graph.h`. A `vector` that a search
fills is a function of its index, read and written below the number of vertices
only.
-/

namespace Pmud.Graphs

inductive GraphType
  | graphtypeDirected
  | graphtypeUndirected
  deriving DecidableEq, Repr

structure Vertex where
  index : Nat
  data : Option Int
  adj : List Nat
  deriving DecidableEq, Repr

namespace Vertex

def create (index : Nat) (data : Option Int := none) : Vertex where
  index := index
  data := data
  adj := []

def addAdj (vertex : Vertex) (v : Nat) : Vertex :=
  { vertex with adj := vertex.adj ++ [v] }

def clearAdj (vertex : Vertex) : Vertex :=
  { vertex with adj := [] }

end Vertex

/-- `V` is kept beside the vertices, as in the source. -/
structure Graph where
  vertices : List Vertex
  V : Nat
  directed : GraphType
  deriving DecidableEq, Repr

namespace Graph

def create (numVertices : Nat) (directed : GraphType) : Graph where
  vertices := (List.range numVertices).map fun u => .create u
  V := numVertices
  directed := directed

def addDirectedEdge (graph : Graph) (u v : Nat) : Graph :=
  { graph with
    vertices := graph.vertices.modify u fun x => if v ∈ x.adj then x else x.addAdj v }

def addEdge (graph : Graph) (u v : Nat) : Graph :=
  let added := graph.addDirectedEdge u v
  if graph.directed = .graphtypeUndirected then added.addDirectedEdge v u else added

def numVertices (graph : Graph) : Nat := graph.V

/-- The constructor that takes a graph. The data of the vertices stays behind. -/
def copy (rhs : Graph) : Graph :=
  rhs.vertices.foldl
    (fun graph x => x.adj.foldl (fun graph y => graph.addDirectedEdge x.index y) graph)
    (create rhs.V rhs.directed)

def transpose (graph : Graph) : Graph :=
  let temp := graph.copy
  if graph.directed = .graphtypeUndirected then temp
  else
    graph.vertices.foldl
      (fun temp x => x.adj.foldl (fun temp y => temp.addDirectedEdge y x.index) temp)
      { temp with vertices := temp.vertices.map Vertex.clearAdj }

/-- Reading behind the last vertex is undefined; here it finds a vertex without
neighbours. -/
def vertex (graph : Graph) (u : Nat) : Vertex :=
  graph.vertices.getD u (.create u)

/-- The graph has as many vertices as it says and its edges lead to them. -/
structure InRange (graph : Graph) : Prop where
  length : graph.vertices.length = graph.V
  adj : ∀ x ∈ graph.vertices, ∀ v ∈ x.adj, v < graph.V

def Edge (graph : Graph) (u v : Nat) : Prop := v ∈ (graph.vertex u).adj

instance (graph : Graph) (u v : Nat) : Decidable (graph.Edge u v) :=
  inferInstanceAs (Decidable (_ ∈ _))

def Reachable (graph : Graph) : Nat → Nat → Prop := Relation.ReflTransGen graph.Edge

theorem InRange.edge {graph : Graph} (inRange : graph.InRange) {u v : Nat}
    (edge : graph.Edge u v) : v < graph.V := by
  unfold Edge vertex at edge
  by_cases within : u < graph.vertices.length
  · rw [List.getD_eq_getElem _ _ within] at edge
    exact inRange.adj _ (List.getElem_mem within) v edge
  · rw [List.getD_eq_default _ _ (Nat.le_of_not_lt within)] at edge
    cases edge

theorem InRange.create (numVertices : Nat) (directed : GraphType) :
    (create numVertices directed).InRange where
  length := by simp [Graph.create]
  adj := by
    intro x member v edge
    rcases List.mem_map.mp member with ⟨u, -, rfl⟩
    cases edge

theorem InRange.addDirectedEdge {graph : Graph} (inRange : graph.InRange) (u : Nat) {v : Nat}
    (within : v < graph.V) : (graph.addDirectedEdge u v).InRange where
  length := by simpa [Graph.addDirectedEdge] using inRange.length
  adj := by
    intro x member w edge
    rcases List.mem_iff_getElem.mp member with ⟨position, bound, rfl⟩
    have old : position < graph.vertices.length := by
      simpa [Graph.addDirectedEdge] using bound
    have before := inRange.adj _ (List.getElem_mem old)
    simp only [Graph.addDirectedEdge, List.getElem_modify] at edge
    split at edge
    · split at edge
      · exact before w edge
      · rcases List.mem_append.mp edge with there | new
        · exact before w there
        · rw [List.mem_singleton.mp new]
          exact within
    · exact before w edge

theorem InRange.addEdge {graph : Graph} (inRange : graph.InRange) {u v : Nat}
    (fromWithin : u < graph.V) (toWithin : v < graph.V) : (graph.addEdge u v).InRange := by
  unfold Graph.addEdge
  split
  · exact (inRange.addDirectedEdge u toWithin).addDirectedEdge v fromWithin
  · exact inRange.addDirectedEdge u toWithin

end Graph

/-- `INVALID_VERTEX` of `common.h`. -/
def invalidVertex : Int := -1

/-- The constant of `limits.h`, for an `int` of 32 bits. -/
def intMax : Int := 2147483647

/-- A cycle through three vertices with a loop at the last, and a vertex apart. -/
def sampleGraph : Graph :=
  ((((Graph.create 4 .graphtypeDirected).addEdge 0 1).addEdge 1 2).addEdge 2 0).addEdge 2 2

theorem sampleGraph_inRange : sampleGraph.InRange :=
  ((((Graph.InRange.create 4 .graphtypeDirected).addEdge (by decide) (by decide)).addEdge
    (by decide) (by decide)).addEdge (by decide) (by decide)).addEdge (by decide) (by decide)

end Pmud.Graphs
