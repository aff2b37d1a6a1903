import Pmud.Graphs.Transpose

/-! # Complete graphs

`addEdgesAllConnect` of `graph/include/common.h`.
-/

namespace Pmud.Graphs

open Foundation

namespace Graph

def addEdgesAllConnect (graph : Graph) : Graph :=
  let N := graph.numVertices
  (List.range N).foldl
    (fun graph i =>
      (List.range N).foldl (fun graph j => if i ≠ j then graph.addEdge i j else graph) graph)
    graph

/-- The first so many vertices, without one of them. -/
def others (u count : Nat) : List Nat := (List.range count).filter (· ≠ u)

theorem others_zero (u : Nat) : others u 0 = [] := rfl

theorem others_succ_self (u : Nat) : others u (u + 1) = others u u := by
  simp [others, List.range_succ]

theorem others_succ {u v : Nat} (different : v ≠ u) : others u (v + 1) = others u v ++ [v] := by
  simp [others, List.range_succ, different]

theorem mem_others (u v count : Nat) : v ∈ others u count ↔ v < count ∧ v ≠ u := by
  simp [others]

/-- The next vertex is added, and one that is there is not added again. -/
theorem addNew_others {u v count : Nat} (different : v ≠ u) (reached : v ≤ count) :
    List.addNew (others u count) v = others u (max count (v + 1)) := by
  rcases Nat.lt_or_eq_of_le reached with before | rfl
  · rw [List.addNew, if_pos ((mem_others u v count).mpr ⟨before, different⟩),
      Nat.max_eq_left before]
  · have absent : v ∉ others u v := fun member =>
      Nat.lt_irrefl v ((mem_others u v v).mp member).1
    rw [List.addNew, if_neg absent, Nat.max_eq_right (Nat.le_succ v), others_succ different]

/-- How far the neighbours of `u` are filled in front of the step with `i` and `j`.
In an undirected graph the vertices behind `i` already have the ones before it. -/
def filled (directed : GraphType) (V i j u : Nat) : Nat :=
  if u < i then V
  else if u = i then if directed = .graphtypeDirected then j else max i j
  else if directed = .graphtypeDirected then 0
  else if u < j then i + 1 else i

/-- What the double loop keeps. -/
structure Filled (directed : GraphType) (V i j : Nat) (graph : Graph) : Prop
    extends graph.Plain V where
  type : graph.directed = directed
  adj_eq : ∀ u < V, (graph.vertex u).adj = others u (filled directed V i j u)

section Filled

variable {graph : Graph} {directed : GraphType} {V i j : Nat}

theorem Plain.addEdge (plain : graph.Plain V) {u v : Nat} (uWithin : u < V) (vWithin : v < V) :
    (graph.addEdge u v).Plain V := by
  unfold Graph.addEdge
  split
  · exact (plain.addDirectedEdge uWithin vWithin).addDirectedEdge vWithin uWithin
  · exact plain.addDirectedEdge uWithin vWithin

theorem Tabulated.addEdge_adj (tabulated : graph.Tabulated V) {u v : Nat} (different : v ≠ u)
    (uWithin : u < V) (vWithin : v < V) (w : Nat) :
    ((graph.addEdge u v).vertex w).adj =
      if w = u then List.addNew (graph.vertex u).adj v
      else if w = v ∧ graph.directed = .graphtypeUndirected then
        List.addNew (graph.vertex v).adj u
      else (graph.vertex w).adj := by
  have first : u < graph.vertices.length := tabulated.length ▸ uWithin
  have second : v < (graph.addDirectedEdge u v).vertices.length := by
    rw [addDirectedEdge_length, tabulated.length]
    exact vWithin
  unfold Graph.addEdge
  cases type : graph.directed with
  | graphtypeDirected =>
      rw [if_neg (by decide), addDirectedEdge_adj graph u v w first]
      by_cases here : w = u
      · simp [here]
      · simp [here, Ne.symm here]
  | graphtypeUndirected =>
      rw [if_pos rfl, addDirectedEdge_adj _ v u w second, addDirectedEdge_adj graph u v w first]
      by_cases here : w = u
      · simp [here, different]
      · by_cases there : w = v
        · simp [there, different, Ne.symm different]
        · simp [here, there, Ne.symm here, Ne.symm there]

theorem Filled.create (V : Nat) (directed : GraphType) :
    (create V directed).Filled directed V 0 0 where
  toPlain := .create V directed
  type := rfl
  adj_eq u within := by
    have none : filled directed V 0 0 u = 0 := by
      cases directed <;> simp [filled]
    rw [create_vertex, none, others_zero]
    rfl

variable (filled : graph.Filled directed V i j)
include filled

/-- One row leads to the next. -/
theorem Filled.next_row (ends : j = V) (within : i < V) : graph.Filled directed V (i + 1) 0 where
  toPlain := filled.toPlain
  type := filled.type
  adj_eq u bound := by
    have same : Graph.filled directed V i j u = Graph.filled directed V (i + 1) 0 u := by
      cases directed <;> grind [Graph.filled]
    rw [filled.adj_eq u bound, same]

theorem Filled.skip (diagonal : i = j) : graph.Filled directed V i (j + 1) where
  toPlain := filled.toPlain
  type := filled.type
  adj_eq u bound := by
    subst diagonal
    rw [filled.adj_eq u bound]
    by_cases here : u = i
    · subst here
      have before : Graph.filled directed V u u u = u := by
        simp [Graph.filled]
      have after : Graph.filled directed V u (u + 1) u = u + 1 := by
        simp [Graph.filled]
      rw [before, after, others_succ_self]
    · have same : Graph.filled directed V i i u = Graph.filled directed V i (i + 1) u := by
        grind [Graph.filled]
      rw [same]

theorem Filled.addEdge (different : i ≠ j) (iWithin : i < V) (jWithin : j < V) :
    (graph.addEdge i j).Filled directed V i (j + 1) where
  toPlain := filled.toPlain.addEdge iWithin jWithin
  type := by simpa using filled.type
  adj_eq u bound := by
    rw [filled.addEdge_adj (Ne.symm different) iWithin jWithin, filled.type]
    split
    · next here =>
      subst here
      have reached : j ≤ Graph.filled directed V u j u := by
        grind [Graph.filled]
      have added : max (Graph.filled directed V u j u) (j + 1) =
          Graph.filled directed V u (j + 1) u := by
        grind [Graph.filled]
      rw [filled.adj_eq u bound, addNew_others (Ne.symm different) reached, added]
    · next other =>
      split
      · next mirrored =>
        rcases mirrored with ⟨rfl, undirected⟩
        have reached : i ≤ Graph.filled directed V i u u := by
          grind [Graph.filled]
        have added : max (Graph.filled directed V i u u) (i + 1) =
            Graph.filled directed V i (u + 1) u := by
          grind [Graph.filled]
        rw [filled.adj_eq u bound, addNew_others different reached, added]
      · next apart =>
        have same : Graph.filled directed V i j u = Graph.filled directed V i (j + 1) u := by
          cases directed <;> grind [Graph.filled]
        rw [filled.adj_eq u bound, same]

end Filled

theorem filled_addEdgesAllConnect (N : Nat) (directed : GraphType) :
    (create N directed).addEdgesAllConnect.Filled directed N N 0 := by
  rw [addEdgesAllConnect]
  apply List.foldl_range (Filled directed N · 0) (.create N directed)
  intro i iWithin graph filled
  refine Filled.next_row ?_ rfl iWithin
  apply List.foldl_range (Filled directed N i) filled
  intro j jWithin graph filled
  split
  · next different => exact filled.addEdge different iWithin jWithin
  · next diagonal => exact filled.skip (not_not.mp diagonal)

/-- Everybody is connected to everybody else, in ascending order. -/
theorem addEdgesAllConnect_create (N : Nat) (directed : GraphType) :
    (create N directed).addEdgesAllConnect =
      ofAdj N directed fun i => (List.range N).filter (· ≠ i) := by
  have filled := filled_addEdgesAllConnect N directed
  rw [filled.eq_ofAdj, filled.type]
  apply ofAdj_congr
  intro u within
  rw [filled.adj_eq u within, Graph.filled, if_pos within]
  rfl

theorem addEdgesAllConnect_adj (N : Nat) :
    (∀ directed, ∀ i < N,
      ((create N directed).addEdgesAllConnect.vertex i).adj = (List.range N).filter (· ≠ i)) ∧
    ∀ i < N, ((create N .graphtypeDirected).addEdgesAllConnect.vertex i).adj =
      ((create N .graphtypeUndirected).addEdgesAllConnect.vertex i).adj := by
  have complete : ∀ directed, ∀ i < N,
      ((create N directed).addEdgesAllConnect.vertex i).adj = (List.range N).filter (· ≠ i) := by
    intro directed i within
    rw [addEdgesAllConnect_create, ofAdj_vertex _ _ within]
  refine ⟨complete, fun i within => ?_⟩
  rw [complete .graphtypeDirected i within, complete .graphtypeUndirected i within]

end Graph

end Pmud.Graphs
