import Pmud.Graphs.Complete
import Pmud.Graphs.PrintMatrix

/-! # Programs that draw a graph

`addEdgesRandom` of `graph/include/common.h`, and the programs of
`graph/application` but `dfs-search`. `arguments`
are the numbers that `atoi` makes of the arguments of a program, none of them
negative.
-/

namespace Pmud.Graphs

open Foundation

namespace Graph

/-- `rand i` are the two numbers that the calls of `rand` give for the arguments of the
call `i` of `addEdge`; which of the two calls comes first is left to the compiler. -/
def addEdgesRandom (graph : Graph) (N : Nat) (rand : Nat → Nat × Nat) : Graph :=
  (List.range N).foldl
    (fun graph i =>
      graph.addEdge ((rand i).1 % graph.numVertices) ((rand i).2 % graph.numVertices))
    graph

/-- Some call has drawn an edge from `u` to `v`. -/
def Drawn (directed : GraphType) (V N : Nat) (rand : Nat → Nat × Nat) (u v : Nat) : Prop :=
  ∃ i < N, ((rand i).1 % V = u ∧ (rand i).2 % V = v) ∨
    (directed = .graphtypeUndirected ∧ (rand i).1 % V = v ∧ (rand i).2 % V = u)

instance (directed : GraphType) (V N : Nat) (rand : Nat → Nat × Nat) (u v : Nat) :
    Decidable (Drawn directed V N rand u v) :=
  inferInstanceAs (Decidable (∃ i < N, _ ∨ _))

/-- The numbers of vertices and of edges. -/
def sizes (V : Nat) : List Nat → Nat × Nat
  | [V] => (V, V * 10)
  | [V, R] => (V, R)
  | _ => (V, V * 10)

/-- What the programs begin with. -/
def random (V : Nat) (directed : GraphType) (arguments : List Nat) (rand : Nat → Nat × Nat) :
    Graph :=
  (create (sizes V arguments).1 directed).addEdgesRandom (sizes V arguments).2 rand

def structureMain (arguments : List Nat) (rand : Nat → Nat × Nat) : List Write :=
  (random 5 .graphtypeUndirected arguments rand).printStructure

def matrixMain (arguments : List Nat) (rand : Nat → Nat × Nat) : List Write :=
  let graph := random 5 .graphtypeUndirected arguments rand
  OStream.cout.put ["Adjaceny List =>", "\n", "\n"] ++
    (graph.printStructure ++
    (OStream.cout.put ["\n"] ++
    (OStream.cout.put ["Adjacency Matrix =>", "\n", "\n"] ++
    graph.printMatrix)))

def randomConnectedMain (arguments : List Nat) (rand : Nat → Nat × Nat) : List Write :=
  (random 5 .graphtypeUndirected arguments rand).printDot .dotStrict

def fullSize : List Nat → Nat
  | [V] => V
  | _ => 5

def fullyConnectedMain (arguments : List Nat) : List Write :=
  (create (fullSize arguments) .graphtypeUndirected).addEdgesAllConnect.printDot .dotStrict

def transposeMain (arguments : List Nat) (rand : Nat → Nat × Nat) : List Write :=
  let graph := random 5 .graphtypeDirected arguments rand
  graph.printMatrix ++ graph.transpose.printMatrix

/-- `none` when `fuel` does not suffice. -/
def bfsSearchMain (fuel : Nat) (arguments : List Nat) (rand : Nat → Nat × Nat) :
    Option (List Write) :=
  let V := (sizes 20 arguments).1
  let graph := random 20 .graphtypeDirected arguments rand
  match BFS.breadthFirstSearch fuel (some graph) 0 with
  | some (.ok data) =>
      let s := 0
      let v := V - 1
      (printPath fuel graph s v data.pi).map fun path =>
        graph.printMatrix ++
          (OStream.cout.put ["\n"] ++
          (OStream.cout.put ["Path from ", graph.text s, " to ", graph.text v, " is: "] ++
          path))
  | _ => none

/-! ## What is drawn -/

section Random

variable {directed : GraphType} {V : Nat}

theorem addEdgesRandom_succ (graph : Graph) (N : Nat) (rand : Nat → Nat × Nat) :
    graph.addEdgesRandom (N + 1) rand =
      (graph.addEdgesRandom N rand).addEdge
        ((rand N).1 % (graph.addEdgesRandom N rand).numVertices)
        ((rand N).2 % (graph.addEdgesRandom N rand).numVertices) := by
  rw [addEdgesRandom, List.range_succ, List.foldl_append]
  rfl

theorem built_addEdgesRandom (positive : 0 < V) (N : Nat) (rand : Nat → Nat × Nat) :
    Built V directed ((create V directed).addEdgesRandom N rand) := by
  induction N with
  | zero => exact .create
  | succ N induction =>
      rw [addEdgesRandom_succ, induction.plain.numVertices]
      exact induction.addEdge (Nat.mod_lt _ positive) (Nat.mod_lt _ positive)

theorem edge_addEdgesRandom (positive : 0 < V) (N : Nat) (rand : Nat → Nat × Nat) (u v : Nat) :
    ((create V directed).addEdgesRandom N rand).Edge u v ↔ Drawn directed V N rand u v := by
  induction N with
  | zero =>
      have none : ¬ (create V directed).Edge u v := by
        intro edge
        rw [Edge, create_vertex] at edge
        cases edge
      simpa [addEdgesRandom, Drawn] using none
  | succ N induction =>
      have before : Built V directed ((create V directed).addEdgesRandom N rand) :=
        built_addEdgesRandom positive N rand
      rw [addEdgesRandom_succ, before.plain.numVertices,
        before.plain.edge_addEdge (Nat.mod_lt _ positive) (Nat.mod_lt _ positive), induction,
        before.directed_eq]
      simp only [Drawn, Nat.lt_succ_iff_lt_or_eq, or_and_right, exists_or, exists_eq_left]
      grind

end Random

section Programs

variable {standard V N : Nat} {directed : GraphType} {arguments : List Nat}
  (size : sizes standard arguments = (V, N)) (positive : 0 < V) (rand : Nat → Nat × Nat)
include size positive

theorem built_random : Built V directed (random standard directed arguments rand) := by
  rw [random, size]
  exact built_addEdgesRandom positive N rand

theorem edge_random (u v : Nat) :
    (random standard directed arguments rand).Edge u v ↔ Drawn directed V N rand u v := by
  rw [random, size]
  exact edge_addEdgesRandom positive N rand u v

theorem edge_random_eq :
    (random standard directed arguments rand).Edge = Drawn directed V N rand := by
  funext u v
  exact propext (edge_random size positive rand u v)

end Programs

/-- The list and the table that `matrix` prints are those of the edges drawn. -/
theorem matrixMain_shows {V N : Nat} {arguments : List Nat} (size : sizes 5 arguments = (V, N))
    (positive : 0 < V) (rand : Nat → Nat × Nat) :
    ∃ listing table,
      written .cout (matrixMain arguments rand) =
        "Adjaceny List =>\n\n" ++ listing ++ "\nAdjacency Matrix =>\n\n" ++ table ∧
      Lists V (Drawn .graphtypeUndirected V N rand) listing ∧
      Tabulates V (Drawn .graphtypeUndirected V N rand) table := by
  have built : Built V .graphtypeUndirected (random 5 .graphtypeUndirected arguments rand) :=
    built_random size positive rand
  have plain := built.plain
  rw [← edge_random_eq size positive rand]
  refine ⟨_, _, ?_, plain.lists_print .cout, plain.tabulates_print .cout⟩
  have title : "\nAdjacency Matrix =>\n\n" = "\n" ++ "Adjacency Matrix =>\n\n" := rfl
  simp only [matrixMain, title, written_append, written_put_self, String.append_assoc]
  rfl

theorem matrixMain_shows_loop :
    ∃ listing table,
      written .cout (matrixMain [2, 1] fun _ => (7, 3)) =
        "Adjaceny List =>\n\n" ++ listing ++ "\nAdjacency Matrix =>\n\n" ++ table ∧
      Lists 2 (Drawn .graphtypeUndirected 2 1 fun _ => (7, 3)) listing ∧
      Tabulates 2 (Drawn .graphtypeUndirected 2 1 fun _ => (7, 3)) table :=
  matrixMain_shows rfl (by decide) _

/-- The second table of `transpose` is the first one with rows for columns. -/
theorem transposeMain_shows {V N : Nat} {arguments : List Nat}
    (size : sizes 5 arguments = (V, N)) (positive : 0 < V) (rand : Nat → Nat × Nat) :
    ∃ first second, written .cout (transposeMain arguments rand) = first ++ second ∧
      Tabulates V (Drawn .graphtypeDirected V N rand) first ∧
      Tabulates V (fun u v => Drawn .graphtypeDirected V N rand v u) second := by
  have built : Built V .graphtypeDirected (random 5 .graphtypeDirected arguments rand) :=
    built_random size positive rand
  have reversed := (built.plain.plain_transpose built.directed_eq).tabulates_print .cout
  rw [← edge_random_eq size positive rand]
  refine ⟨_, _, written_append _ _ _, built.plain.tabulates_print .cout, ?_⟩
  rcases reversed with ⟨marks, read, marked⟩
  refine ⟨marks, read, fun u v => ?_⟩
  rw [marked]
  exact built.plain.edge_transpose built.directed_eq u v

theorem transposeMain_shows_arrow :
    ∃ first second, written .cout (transposeMain [2, 1] fun _ => (4, 9)) = first ++ second ∧
      Tabulates 2 (Drawn .graphtypeDirected 2 1 fun _ => (4, 9)) first ∧
      Tabulates 2 (fun u v => Drawn .graphtypeDirected 2 1 (fun _ => (4, 9)) v u) second :=
  transposeMain_shows rfl (by decide) _

theorem structureMain_shows {V N : Nat} {arguments : List Nat}
    (size : sizes 5 arguments = (V, N)) (positive : 0 < V) (rand : Nat → Nat × Nat) :
    Lists V (Drawn .graphtypeUndirected V N rand)
      (written .cout (structureMain arguments rand)) := by
  rw [← edge_random_eq size positive rand]
  exact (built_random size positive rand).plain.lists_print .cout

/-- The document has the edges of a symmetric relation, once each, and those vertices that
have one. -/
structure DrawsOnce (V : Nat) (edge : Nat → Nat → Prop) (document : Dot.Document) : Prop where
  undirected : document.directed = false
  joined : ∀ u < V, ∀ v < V, edge u v → document.multiplicity (dotName u) (dotName v) = 1
  apart : ∀ u < V, ∀ v < V, ¬ edge u v → document.multiplicity (dotName u) (dotName v) = 0
  nodes : ∀ name, name ∈ document.nodes ↔ ∃ u v, edge u v ∧ name = dotName u

theorem Plain.drawsOnce {graph : Graph} {V : Nat} (plain : graph.Plain V)
    (type : graph.directed = .graphtypeUndirected)
    (symmetric : ∀ u v, graph.Edge u v ↔ graph.Edge v u) :
    ∃ document, Dot.read (written .cout (graph.printDot .dotStrict)) = some document ∧
      DrawsOnce V graph.Edge document := by
  have count : graph.V = V := plain.numVertices
  have edges := (plain.edges_iff .dotStrict []).mpr (.inl rfl)
  rw [count] at edges
  have joined (u v : Nat) : graph.Joined u v ↔ graph.Edge u v := by
    rw [Joined, symmetric v u]
    exact or_iff_left_of_imp And.right
  refine ⟨_, plain.read_printDot .dotStrict .cout, ?_, ?_, ?_, ?_⟩
  · simp [dotDocument, isDirected, type]
  · intro u uWithin v vWithin edge
    rw [edges u uWithin v vWithin, if_pos ((joined u v).mpr edge)]
  · intro u uWithin v vWithin none
    rw [edges u uWithin v vWithin, if_neg (mt (joined u v).mp none)]
  · intro name
    rw [plain.mem_nodes]
    constructor
    · rintro (none | ⟨u, ⟨v, outgoing | incoming⟩, same⟩)
      · cases none
      · exact ⟨u, v, outgoing, same⟩
      · exact ⟨u, v, (symmetric u v).mpr incoming, same⟩
    · rintro ⟨u, v, edge, same⟩
      exact .inr ⟨u, ⟨v, .inl edge⟩, same⟩

/-- The document that `random-connected` prints has the edges drawn. -/
theorem randomConnectedMain_shows {V N : Nat} {arguments : List Nat}
    (size : sizes 5 arguments = (V, N)) (positive : 0 < V) (rand : Nat → Nat × Nat) :
    ∃ document, Dot.read (written .cout (randomConnectedMain arguments rand)) = some document ∧
      DrawsOnce V (Drawn .graphtypeUndirected V N rand) document := by
  have built : Built V .graphtypeUndirected (random 5 .graphtypeUndirected arguments rand) :=
    built_random size positive rand
  rw [← edge_random_eq size positive rand]
  exact built.plain.drawsOnce built.directed_eq
    (built.representation.symmetric built.directed_eq)

theorem randomConnectedMain_shows_loop :
    ∃ document, Dot.read (written .cout (randomConnectedMain [2, 1] fun _ => (7, 3))) =
        some document ∧
      DrawsOnce 2 (Drawn .graphtypeUndirected 2 1 fun _ => (7, 3)) document :=
  randomConnectedMain_shows rfl (by decide) _

/-- A single vertex is not drawn. -/
theorem fullyConnectedMain_shows (arguments : List Nat) :
    ∃ document, Dot.read (written .cout (fullyConnectedMain arguments)) = some document ∧
      DrawsOnce (fullSize arguments)
        (fun u v => u < fullSize arguments ∧ v < fullSize arguments ∧ u ≠ v) document := by
  have filled := filled_addEdgesAllConnect (fullSize arguments) .graphtypeUndirected
  have edge : (create (fullSize arguments) .graphtypeUndirected).addEdgesAllConnect.Edge =
      fun u v => u < fullSize arguments ∧ v < fullSize arguments ∧ u ≠ v := by
    funext u v
    apply propext
    by_cases within : u < fullSize arguments
    · rw [addEdgesAllConnect_create, ofAdj_edge within]
      simp [within, ne_comm]
    · exact ⟨fun edge => absurd (filled.edge_bounds edge).1 within,
        fun both => absurd both.1 within⟩
  rw [← edge]
  refine filled.toPlain.drawsOnce filled.type fun u v => ?_
  rw [edge]
  tauto

/-! ## The shortest path -/

theorem Tabulated.inRange {graph : Graph} {V : Nat} (tabulated : graph.Tabulated V) :
    graph.InRange where
  length := tabulated.length.trans tabulated.numVertices.symm
  adj := by
    intro x member v edge
    rw [tabulated.vertices_eq] at member
    rcases List.mem_map.mp member with ⟨u, inside, rfl⟩
    have count : graph.V = V := tabulated.numVertices
    exact count ▸ tabulated.adj u (List.mem_range.mp inside) v edge

theorem Plain.text_eq {graph : Graph} {V v : Nat} (plain : graph.Plain V) (within : v < V) :
    graph.text v = toString v := by
  rw [text, plain.data v within, plain.index v within]
  rfl

/-- The texts of a path are the numbers of its vertices. -/
theorem Plain.map_text {graph : Graph} {V s v : Nat} (plain : graph.Plain V) (within : s < V)
    {path : List Nat} (route : Route graph.Edge s v path) :
    path.map graph.text = path.map toString := by
  have inside : ∀ u ∈ path, u < V := by
    apply route.chain.induction
    · exact fun u v edge _ => (plain.edge_bounds edge).2
    · intro nonempty
      have first := route.head
      rw [List.head?_eq_some_head nonempty, Option.some.injEq] at first
      exact first ▸ within
  exact List.map_congr_left fun u member => plain.text_eq (inside u member)

/-- What is said of a path from the first vertex to the last one. -/
def Answers (V : Nat) (edge : Nat → Nat → Prop) (answer : String) : Prop :=
  (∃ path, Route edge 0 (V - 1) path ∧ IsDistance edge 0 (V - 1) (path.length - 1) ∧
    answer = " -> ".intercalate (path.map toString) ++ "\n") ∨
  (¬ Relation.ReflTransGen edge 0 (V - 1) ∧
    answer = "No path from 0 to " ++ toString (V - 1) ++ " exists.\n\n")

theorem Plain.answers {graph : Graph} {V fuel : Nat} (plain : graph.Plain V) (positive : 0 < V)
    (enough : V ≤ fuel) :
    ∃ data writes, BFS.breadthFirstSearch fuel (some graph) 0 = some (.ok data) ∧
      printPath fuel graph 0 (V - 1) data.pi = some writes ∧
      Answers V graph.Edge (written .cout writes) := by
  have count : graph.V = V := plain.numVertices
  have last : V - 1 < V := by omega
  rcases BFS.search_ends plain.inRange (count ▸ positive) (count ▸ enough) with
    ⟨state, done, ends, frontier, empty⟩
  have searched : BFS.breadthFirstSearch fuel (some graph) 0 = some (.ok (state.data graph)) := by
    rw [BFS.breadthFirstSearch, ends]
    rfl
  by_cases reachable : graph.Reachable 0 (V - 1)
  · have pushed := (frontier.pushed_iff_reachable empty).mpr reachable
    rcases frontier.walk (V - 1) pushed with ⟨steps, short, walk, d⟩
    have bound : steps < fuel := by
      have length := frontier.pushed_length_le
      omega
    rcases prints_of_cout frontier pushed d bound with
      ⟨writes, prints, path, route, length, text, -⟩
    rw [d] at length
    refine ⟨_, writes, searched, prints, .inl ⟨path, route, ?_, ?_⟩⟩
    · have edges : path.length - 1 = steps := by omega
      rw [edges]
      refine ⟨walk, fun other way => ?_⟩
      have least := (frontier.labelling empty way).2
      omega
    · rw [text, plain.map_text positive route]
  · have other : V - 1 ≠ 0 := fun same => reachable (same ▸ .refl)
    have missing := mt (frontier.pushed_iff_reachable empty).mp reachable
    have cleared : (state.data graph).pi (V - 1) = invalidVertex :=
      (frontier.white (V - 1) (count ▸ last) missing).2.2
    rcases Nat.exists_eq_succ_of_ne_zero (show fuel ≠ 0 by omega) with ⟨calls, rfl⟩
    have prints : printPath (calls + 1) graph 0 (V - 1) (state.data graph).pi =
        some (OStream.cout.put
          ["No path from ", graph.text 0, " to ", graph.text (V - 1), " exists.", "\n"] ++
          OStream.cout.put ["\n"]) := by
      rw [printPath, _printPath, if_neg other, if_pos cleared]
      rfl
    refine ⟨_, _, searched, prints, .inr ⟨reachable, ?_⟩⟩
    rw [written_append, written_put_self, written_put_self, plain.text_eq positive,
      plain.text_eq last]
    simp [String.join, String.append_assoc]
    rfl

/-- `bfs-search` prints the graph that is drawn and a shortest path through it. -/
theorem bfsSearchMain_finds {V N fuel : Nat} {arguments : List Nat}
    (size : sizes 20 arguments = (V, N)) (positive : 0 < V) (rand : Nat → Nat × Nat)
    (enough : V ≤ fuel) :
    ∃ writes table answer, bfsSearchMain fuel arguments rand = some writes ∧
      written .cout writes =
        table ++ "\nPath from 0 to " ++ toString (V - 1) ++ " is: " ++ answer ∧
      Tabulates V (Drawn .graphtypeDirected V N rand) table ∧
      Answers V (Drawn .graphtypeDirected V N rand) answer := by
  have built : Built V .graphtypeDirected (random 20 .graphtypeDirected arguments rand) :=
    built_random size positive rand
  have plain := built.plain
  rcases plain.answers positive enough with ⟨data, path, searched, printed, answers⟩
  rw [← edge_random_eq size positive rand]
  have ran : bfsSearchMain fuel arguments rand = some
      ((random 20 .graphtypeDirected arguments rand).printMatrix ++
        (OStream.cout.put ["\n"] ++
        (OStream.cout.put ["Path from ", (random 20 .graphtypeDirected arguments rand).text 0,
          " to ", (random 20 .graphtypeDirected arguments rand).text (V - 1), " is: "] ++
        path))) := by
    simp only [bfsSearchMain, searched, size, printed, Option.map_some]
  refine ⟨_, _, _, ran, ?_, plain.tabulates_print .cout, answers⟩
  have label : "\nPath from 0 to " = "\n" ++ ("Path from " ++ (toString 0 ++ " to ")) := rfl
  rw [plain.text_eq positive, plain.text_eq (show V - 1 < V by omega), label]
  simp only [written_append, written_put_self, String.join_cons, String.join_nil,
    String.append_empty, String.append_assoc]

theorem bfsSearchMain_finds_loop :
    ∃ writes table answer, bfsSearchMain 2 [2, 1] (fun _ => (7, 3)) = some writes ∧
      written .cout writes =
        table ++ "\nPath from 0 to " ++ toString (2 - 1) ++ " is: " ++ answer ∧
      Tabulates 2 (Drawn .graphtypeDirected 2 1 fun _ => (7, 3)) table ∧
      Answers 2 (Drawn .graphtypeDirected 2 1 fun _ => (7, 3)) answer :=
  bfsSearchMain_finds rfl (by decide) _ (by decide)

end Graph

end Pmud.Graphs
