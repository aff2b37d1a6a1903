import Pmud.Foundation.Dot
import Pmud.Graphs.DFS
import Pmud.Graphs.PrintPath
import Pmud.Graphs.Transpose

/-! # Printing DOT

`printDot` of `graph/include/common.h` and `printDotDfsAnnotate` of
`graph/include/DFS.h`, read as DOT.
-/

namespace Pmud.Graphs

open Foundation

inductive DotGraphType
  | dotStrict
  | dotNonstrict
  deriving DecidableEq, Repr

/-- `operator<<` -/
def Vertex.text (vertex : Vertex) : String := toString (vertex.data.getD vertex.index)

namespace Graph

def isDirected (graph : Graph) : Bool := graph.directed = .graphtypeDirected

def connector (graph : Graph) : String := if graph.isDirected then "->" else "--"

/-- What both printers begin with. -/
def dotHeader (graph : Graph) (strict : DotGraphType) (output : OStream) : List Write :=
  (if strict = .dotStrict then output.put ["strict "] else []) ++
    if graph.isDirected then output.put ["digraph \x7b", "\n"]
    else output.put ["graph \x7b", "\n"]

/-- The loops over the edges, which indent differently. -/
def dotEdges (graph : Graph) (indent : String) (output : OStream) : List Write :=
  graph.vertices.flatMap fun x => x.adj.flatMap fun y =>
    output.put [indent, x.text, " ", graph.connector, " ", graph.text y, "\n"]

def printDot (graph : Graph) (strict : DotGraphType) (output : OStream := .cout) : List Write :=
  graph.dotHeader strict output ++ (graph.dotEdges " " output ++ output.put ["\x7d", "\n"])

def printDotDfsAnnotate (graph : Graph) (strict : DotGraphType) (data : DFS.SearchData)
    (output : OStream := .cout) : List Write :=
  graph.dotHeader strict output ++
    ((graph.vertices.flatMap fun x =>
        output.put ["  ", x.text, " [xlabel=\"(", toString (data.d x.index), "..",
          toString (data.f x.index), ")\" fontsize=\"8\"]", "\n"]) ++
      (graph.dotEdges "  " output ++ output.put ["\x7d", "\n"]))

/-- A vertex is named by its number. -/
def dotName (v : Nat) : Dot.Name := Nat.toDigits 10 v

/-- Some edge of the graph joins `u` to `v`. -/
def Joined (graph : Graph) (u v : Nat) : Prop :=
  graph.Edge u v ∨ graph.directed = .graphtypeUndirected ∧ graph.Edge v u

instance (graph : Graph) (u v : Nat) : Decidable (graph.Joined u v) :=
  inferInstanceAs (Decidable (_ ∨ _ ∧ _))

/-- The document has the vertices of the graph and each of its edges once. -/
structure Denotes (document : Dot.Document) (graph : Graph) : Prop where
  directed : document.directed = graph.isDirected
  nodes : ∀ name, name ∈ document.nodes ↔ ∃ v < graph.V, name = dotName v
  edges : ∀ u < graph.V, ∀ v < graph.V,
    document.multiplicity (dotName u) (dotName v) = if graph.Joined u v then 1 else 0

/-- The text that one stream has got denotes the graph. -/
def PrintsFaithfully (graph : Graph) (output : OStream) (writes : List Write) : Prop :=
  ∃ document, Dot.read (written output writes) = some document ∧ Denotes document graph

/-! ## The texts -/

theorem toList_written_put (output : OStream) (texts : List String) :
    (written output (output.put texts)).toList = texts.flatMap String.toList := by
  rw [written_put_self, String.toList_join]

theorem toList_written_flatMap {α : Type} (output : OStream) (block : α → List Write)
    (items : List α) :
    (written output (items.flatMap block)).toList =
      items.flatMap fun item => (written output (block item)).toList := by
  induction items with
  | nil => rfl
  | cons item rest induction =>
      rw [List.flatMap_cons, written_append, String.toList_append, induction, List.flatMap_cons]

theorem isDigit_of_mem_dotName {v : Nat} {c : Char} (member : c ∈ dotName v) :
    c.isDigit = true :=
  Nat.isDigit_of_mem_toDigits (by decide) (by decide) member

theorem dotName_injective : Function.Injective dotName := by
  intro u v same
  rw [← Nat.ofDigitChars_ten_toDigits (n := u), ← Nat.ofDigitChars_ten_toDigits (n := v)]
  exact congrArg (Nat.ofDigitChars 10 · 0) same

/-- A name with the character that ends it. -/
theorem lexes_dotName {c : Char} {tokens : List Dot.Token} (v : Nat)
    (ends : Dot.isWordChar c = false) (lexes : Dot.Lexes [c] tokens) :
    Dot.Lexes (dotName v ++ [c]) (.name (dotName v) :: tokens) := by
  have digits : ∀ c ∈ dotName v, c.isDigit = true := fun c => isDigit_of_mem_dotName
  refine Dot.Lexes.word Nat.toDigits_ne_nil (List.all_eq_true.mpr fun c member => ?_)
    (Dot.token_ofWord_of_digits digits Nat.toDigits_ne_nil) ends lexes
  simp [Dot.isWordChar, Char.isAlphanum, digits c member]

/-- A number in a string needs no escape. -/
theorem plain_toString (n : Int) : (toString n).toList.all Dot.isPlain = true := by
  have plain : ∀ v : Nat, (Nat.toDigits 10 v).all Dot.isPlain = true := by
    intro v
    apply List.all_eq_true.mpr
    intro c member
    have digit : c.isDigit = true := isDigit_of_mem_dotName member
    have symbol : c ≠ '"' ∧ c ≠ '\\' := by
      constructor
      · rintro rfl
        cases digit
      · rintro rfl
        cases digit
    simp [Dot.isPlain, symbol]
  cases n with
  | ofNat v => simpa [toString, Int.repr] using plain v
  | negSucc v =>
      have sign : Dot.isPlain '-' = true := rfl
      simpa [toString, Int.repr, sign] using plain (v + 1)

section Text

variable {graph : Graph} {V : Nat} (plain : graph.Plain V)
include plain

theorem Plain.toList_text {v : Nat} (within : v < V) : (graph.text v).toList = dotName v := by
  rw [text, plain.data v within, plain.index v within]
  simp [dotName, toString, Int.repr]

omit plain in
theorem lexes_connector (graph : Graph) :
    Dot.Lexes graph.connector.toList [Dot.operator graph.isDirected] := by
  intro before
  unfold connector
  cases graph.isDirected <;> rfl

/-- The line of an edge. -/
theorem Plain.lexes_edge {indent : String} (blank : Dot.Lexes indent.toList [])
    (output : OStream) {u v : Nat} (uWithin : u < V) (vWithin : v < V) :
    Dot.Lexes
      (written output (output.put
        [indent, graph.text u, " ", graph.connector, " ", graph.text v, "\n"])).toList
      (Dot.edgeTokens graph.isDirected (dotName u, dotName v)) := by
  have line := blank.append ((lexes_dotName u rfl .space).append ((lexes_connector graph).append
    (Dot.Lexes.space.append (lexes_dotName v rfl .newline))))
  have chars : (written output (output.put
      [indent, graph.text u, " ", graph.connector, " ", graph.text v, "\n"])).toList =
      indent.toList ++ (dotName u ++ [' '] ++ (graph.connector.toList ++
        ([' '] ++ (dotName v ++ ['\n'])))) := by
    rw [toList_written_put]
    simp [plain.toList_text uWithin, plain.toList_text vWithin]
  rw [chars]
  exact line

/-- Two loops over the graph are one loop over its edges. -/
theorem Plain.dotEdges_eq (indent : String) (output : OStream) :
    graph.dotEdges indent output = graph.edges.flatMap fun edge =>
      output.put
        [indent, graph.text edge.1, " ", graph.connector, " ", graph.text edge.2, "\n"] := by
  rw [dotEdges, plain.edges_eq, plain.vertices_eq, List.flatMap_map, List.flatMap_assoc]
  apply List.flatMap_congr
  intro u member
  have label : (graph.vertex u).text = graph.text u := rfl
  rw [List.flatMap_map, label]

theorem Plain.lexes_edges (indent : String) (blank : Dot.Lexes indent.toList [])
    (output : OStream) :
    Dot.Lexes (written output (graph.dotEdges indent output)).toList
      ((graph.edges.map fun edge => (dotName edge.1, dotName edge.2)).flatMap
        (Dot.edgeTokens graph.isDirected)) := by
  rw [plain.dotEdges_eq, toList_written_flatMap, List.flatMap_map]
  apply Dot.Lexes.flatMap
  intro edge member
  have within := plain.edges_within edge member
  exact plain.lexes_edge blank output within.1 within.2

omit plain in
theorem lexes_header (graph : Graph) (strict : DotGraphType) (output : OStream) :
    Dot.Lexes (written output (graph.dotHeader strict output)).toList
      (Dot.header (strict = .dotStrict) graph.isDirected) := by
  have word : ∀ (known : String) (keyword : Dot.Keyword), known.toList ≠ [] →
      known.toList.all Dot.isWordChar = true →
      Dot.Token.ofWord known.toList = some (.keyword keyword) →
      Dot.Lexes (known.toList ++ [' ']) [.keyword keyword] :=
    fun known keyword nonempty chars is => .word nonempty chars is rfl .space
  have brace : Dot.Lexes ['\x7b', '\n'] [.openBrace] := fun _ => rfl
  have opening : Dot.Lexes
      (written output (if graph.isDirected then output.put ["digraph \x7b", "\n"]
        else output.put ["graph \x7b", "\n"])).toList
      [.keyword (if graph.isDirected then .digraph else .graph), .openBrace] := by
    cases graph.isDirected with
    | true =>
        have line := (word "digraph" .digraph (by decide) (by decide) (by decide)).append brace
        simpa [toList_written_put] using line
    | false =>
        have line := (word "graph" .graph (by decide) (by decide) (by decide)).append brace
        simpa [toList_written_put] using line
  rw [dotHeader, written_append, String.toList_append, Dot.header]
  refine Dot.Lexes.append ?_ opening
  cases strict with
  | dotStrict =>
      have line := word "strict" .strict (by decide) (by decide) (by decide)
      simpa [toList_written_put] using line
  | dotNonstrict => exact .nil

/-- The attributes of a vertex after a search. -/
def dfsAttributes (data : DFS.SearchData) (v : Nat) : List (Dot.Name × Dot.Name) :=
  [("xlabel".toList, "(".toList ++ (toString (data.d v)).toList ++ "..".toList ++
    (toString (data.f v)).toList ++ ")".toList), ("fontsize".toList, "8".toList)]

/-- The line of a vertex. -/
theorem Plain.lexes_node (data : DFS.SearchData) (output : OStream) {v : Nat} (within : v < V) :
    Dot.Lexes
      (written output (output.put ["  ", graph.text v, " [xlabel=\"(", toString (data.d v), "..",
        toString (data.f v), ")\" fontsize=\"8\"]", "\n"])).toList
      (Dot.nodeTokens (dotName v, dfsAttributes data v)) := by
  have inside : ("(".toList ++ (toString (data.d v)).toList ++ "..".toList ++
      (toString (data.f v)).toList ++ ")".toList).all Dot.isPlain = true := by
    simp only [List.all_append, plain_toString]
    rfl
  have xlabel : Dot.Lexes _ (Dot.attributeTokens ("xlabel".toList, _)) :=
    .pair (by decide) (by decide) (by decide) inside
  have fontsize : Dot.Lexes _ (Dot.attributeTokens ("fontsize".toList, "8".toList)) :=
    .pair (by decide) (by decide) (by decide) (by decide)
  have opening : Dot.Lexes ['['] [.openBracket] := fun _ => rfl
  have closing : Dot.Lexes [']', '\n'] [.closeBracket] := fun _ => rfl
  have line := Dot.Lexes.space.append (Dot.Lexes.space.append ((lexes_dotName v rfl .space).append
    (opening.append (xlabel.append (Dot.Lexes.space.append (fontsize.append closing))))))
  simpa [toList_written_put, plain.toList_text within, Dot.nodeTokens, dfsAttributes,
    Dot.attributeTokens] using line

/-! ## The documents -/

omit plain in
/-- What is read of the text, with the vertices that have a line of their own. -/
def dotDocument (graph : Graph) (strict : DotGraphType) (declared : List Dot.Name) :
    Dot.Document where
  strict := strict = .dotStrict
  directed := graph.isDirected
  declared := declared
  edges := graph.edges.map fun edge => (dotName edge.1, dotName edge.2)

omit plain in
theorem lexes_close (output : OStream) :
    Dot.Lexes (written output (output.put ["\x7d", "\n"])).toList [.closeBrace] := by
  rw [toList_written_put]
  exact fun _ => rfl

theorem Plain.read_printDot (strict : DotGraphType) (output : OStream) :
    Dot.read (written output (graph.printDot strict output)) =
      some (graph.dotDocument strict []) := by
  have edges : Dot.Lexes (written output (graph.dotEdges " " output)).toList _ :=
    plain.lexes_edges " " .space output
  have lexes := (lexes_header graph strict output).append (edges.append (lexes_close output))
  rw [Dot.read, printDot, written_append, written_append, String.toList_append,
    String.toList_append, lexes.tokenize, Option.bind_some]
  exact Dot.parse_header _ _ [] _

theorem Plain.read_printDotDfsAnnotate (strict : DotGraphType) (data : DFS.SearchData)
    (output : OStream) :
    Dot.read (written output (graph.printDotDfsAnnotate strict data output)) =
      some (graph.dotDocument strict ((List.range V).map dotName)) := by
  have edges : Dot.Lexes (written output (graph.dotEdges "  " output)).toList _ :=
    plain.lexes_edges "  " (Dot.Lexes.space.append .space) output
  have nodes : Dot.Lexes
      (written output (graph.vertices.flatMap fun x =>
        output.put ["  ", x.text, " [xlabel=\"(", toString (data.d x.index), "..",
          toString (data.f x.index), ")\" fontsize=\"8\"]", "\n"])).toList
      (((List.range V).map fun v => (dotName v, dfsAttributes data v)).flatMap
        Dot.nodeTokens) := by
    rw [toList_written_flatMap, plain.vertices_eq, List.flatMap_map, List.flatMap_map]
    apply Dot.Lexes.flatMap
    intro v member
    have within := List.mem_range.mp member
    rw [plain.index v within]
    exact plain.lexes_node data output within
  have lexes := (lexes_header graph strict output).append
    (nodes.append (edges.append (lexes_close output)))
  rw [Dot.read, printDotDfsAnnotate, written_append, written_append, written_append,
    String.toList_append, String.toList_append, String.toList_append, lexes.tokenize,
    Option.bind_some, Dot.parse_header, List.map_map]
  rfl

/-! ## What they denote -/

theorem Plain.count_edges (u v : Nat) :
    (graph.edges.map fun edge => (dotName edge.1, dotName edge.2)).count (dotName u, dotName v) =
      if graph.Edge u v then 1 else 0 := by
  have injective : Function.Injective fun edge : Nat × Nat =>
      (dotName edge.1, dotName edge.2) := by
    intro first second same
    simp only [Prod.mk.injEq] at same
    exact Prod.ext (dotName_injective same.1) (dotName_injective same.2)
  have counted := List.count_map_of_injective graph.edges _ injective (u, v)
  rw [counted]
  split
  · next edge =>
    exact List.count_eq_one_of_mem plain.nodup_edges ((plain.mem_edges u v).mpr edge)
  · next none =>
    exact List.count_eq_zero_of_not_mem fun member => none ((plain.mem_edges u v).mp member)

/-- An edge is doubled when both of its ends list the other. -/
theorem Plain.multiplicity_iff (strict : DotGraphType) (declared : List Dot.Name) (u v : Nat) :
    (graph.dotDocument strict declared).multiplicity (dotName u) (dotName v) =
        (if graph.Joined u v then 1 else 0) ↔
      strict = .dotStrict ∨ graph.directed = .graphtypeDirected ∨
        (u ≠ v → ¬ (graph.Edge u v ∧ graph.Edge v u)) := by
  have statements : (graph.dotDocument strict declared).statements (dotName u) (dotName v) =
      (if graph.Edge u v then 1 else 0) +
        if graph.directed = .graphtypeDirected ∨ u = v then 0
        else if graph.Edge v u then 1 else 0 := by
    simp only [Dot.Document.statements, dotDocument, plain.count_edges, isDirected,
      dotName_injective.eq_iff, decide_eq_true_eq]
  have merges : (graph.dotDocument strict declared).strict = true ↔ strict = .dotStrict :=
    decide_eq_true_iff
  have types : graph.directed = .graphtypeDirected ∨ graph.directed = .graphtypeUndirected := by
    cases graph.directed
    · exact .inl rfl
    · exact .inr rfl
  simp only [Dot.Document.multiplicity, statements, merges, Joined]
  by_cases same : u = v
  · subst same
    grind
  · grind

/-- Every vertex has an edge. -/
def Covered (graph : Graph) : Prop :=
  ∀ v < graph.V, ∃ u, graph.Edge v u ∨ graph.Edge u v

omit plain in
/-- No edge is written twice, or it does not matter. -/
def EdgesOnce (graph : Graph) (strict : DotGraphType) : Prop :=
  strict = .dotStrict ∨ graph.directed = .graphtypeDirected ∨
    ∀ u v, u ≠ v → ¬ (graph.Edge u v ∧ graph.Edge v u)

theorem Plain.edges_iff (strict : DotGraphType) (declared : List Dot.Name) :
    (∀ u < graph.V, ∀ v < graph.V,
      (graph.dotDocument strict declared).multiplicity (dotName u) (dotName v) =
        if graph.Joined u v then 1 else 0) ↔ graph.EdgesOnce strict := by
  have size : graph.V = V := plain.numVertices
  simp only [plain.multiplicity_iff, EdgesOnce]
  by_cases merged : strict = .dotStrict ∨ graph.directed = .graphtypeDirected
  · rcases merged with merged | merged
    · simp [merged]
    · simp [merged]
  · rw [not_or] at merged
    simp only [merged.1, merged.2, false_or]
    constructor
    · intro once u v different both
      have bounds := plain.edge_bounds both.1
      exact once u (size ▸ bounds.1) v (size ▸ bounds.2) different both
    · exact fun once u _ v _ => once u v

/-- The names in the edges are those of the vertices that have one. -/
theorem Plain.mem_nodes (strict : DotGraphType) (declared : List Dot.Name) (name : Dot.Name) :
    name ∈ (graph.dotDocument strict declared).nodes ↔
      name ∈ declared ∨ ∃ v, (∃ u, graph.Edge v u ∨ graph.Edge u v) ∧ name = dotName v := by
  rw [Dot.Document.nodes, List.mem_append, dotDocument]
  refine or_congr_right ?_
  simp only [List.flatMap_map, List.mem_flatMap, List.mem_cons, List.not_mem_nil, or_false]
  constructor
  · rintro ⟨⟨u, v⟩, member, source | target⟩
    · exact ⟨u, ⟨v, .inl ((plain.mem_edges u v).mp member)⟩, source⟩
    · exact ⟨v, ⟨u, .inr ((plain.mem_edges u v).mp member)⟩, target⟩
  · rintro ⟨v, ⟨u, outgoing | incoming⟩, rfl⟩
    · exact ⟨(v, u), (plain.mem_edges v u).mpr outgoing, .inl rfl⟩
    · exact ⟨(u, v), (plain.mem_edges u v).mpr incoming, .inr rfl⟩

/-- An edge leads from a vertex of the graph to another one. -/
theorem Plain.within_of_edge {u v : Nat} (edge : graph.Edge v u ∨ graph.Edge u v) :
    v < graph.V := by
  rw [show graph.V = V from plain.numVertices]
  rcases edge with outgoing | incoming
  · exact (plain.edge_bounds outgoing).1
  · exact (plain.edge_bounds incoming).2

theorem Plain.denotes_iff (strict : DotGraphType) (declared : List Dot.Name) :
    Denotes (graph.dotDocument strict declared) graph ↔
      (∀ name, name ∈ (graph.dotDocument strict declared).nodes ↔
        ∃ v < graph.V, name = dotName v) ∧ graph.EdgesOnce strict := by
  rw [← plain.edges_iff strict declared]
  exact ⟨fun denotes => ⟨denotes.nodes, denotes.edges⟩, fun holds => ⟨rfl, holds.1, holds.2⟩⟩

theorem Plain.printDot_iff (strict : DotGraphType) (output : OStream) :
    graph.PrintsFaithfully output (graph.printDot strict output) ↔
      graph.Covered ∧ graph.EdgesOnce strict := by
  have nodes : (∀ name, name ∈ (graph.dotDocument strict []).nodes ↔
      ∃ v < graph.V, name = dotName v) ↔ graph.Covered := by
    simp only [plain.mem_nodes, List.not_mem_nil, false_or]
    constructor
    · intro named v within
      rcases (named (dotName v)).mpr ⟨v, within, rfl⟩ with ⟨w, edge, same⟩
      exact dotName_injective same ▸ edge
    · intro covered name
      constructor
      · rintro ⟨v, ⟨u, edge⟩, rfl⟩
        exact ⟨v, plain.within_of_edge edge, rfl⟩
      · rintro ⟨v, within, rfl⟩
        exact ⟨v, covered v within, rfl⟩
  rw [PrintsFaithfully, plain.read_printDot]
  simp only [Option.some.injEq, exists_eq_left', plain.denotes_iff, nodes]

theorem Plain.printDotDfsAnnotate_iff (strict : DotGraphType) (data : DFS.SearchData)
    (output : OStream) :
    graph.PrintsFaithfully output (graph.printDotDfsAnnotate strict data output) ↔
      graph.EdgesOnce strict := by
  have size : graph.V = V := plain.numVertices
  have nodes : ∀ name, name ∈ (graph.dotDocument strict ((List.range V).map dotName)).nodes ↔
      ∃ v < graph.V, name = dotName v := by
    intro name
    rw [plain.mem_nodes, size]
    simp only [List.mem_map, List.mem_range]
    constructor
    · rintro (⟨v, within, rfl⟩ | ⟨v, ⟨u, edge⟩, rfl⟩)
      · exact ⟨v, within, rfl⟩
      · exact ⟨v, size ▸ plain.within_of_edge edge, rfl⟩
    · rintro ⟨v, within, rfl⟩
      exact .inl ⟨v, within, rfl⟩
  rw [PrintsFaithfully, plain.read_printDotDfsAnnotate]
  simp only [Option.some.injEq, exists_eq_left', plain.denotes_iff]
  exact and_iff_right nodes

end Text

/-- Which graphs both printers write down. -/
theorem printsFaithfully_iff {graph : Graph} {V : Nat} (plain : graph.Plain V)
    (strict : DotGraphType) (data : DFS.SearchData) (output : OStream) :
    (graph.PrintsFaithfully output (graph.printDot strict output) ∧
        graph.PrintsFaithfully output (graph.printDotDfsAnnotate strict data output)) ↔
      graph.Covered ∧ graph.EdgesOnce strict := by
  rw [plain.printDot_iff, plain.printDotDfsAnnotate_iff]
  tauto

theorem printsFaithfully_arrow :
    ((((create 2 .graphtypeDirected).addEdge 0 1).PrintsFaithfully .cout
        (((create 2 .graphtypeDirected).addEdge 0 1).printDot .dotStrict)) ∧
      (((create 2 .graphtypeDirected).addEdge 0 1).PrintsFaithfully .cout
        (((create 2 .graphtypeDirected).addEdge 0 1).printDotDfsAnnotate .dotStrict
          ((DFS.emptyState : DFS.State Int32).data (create 2 .graphtypeDirected))))) ↔
      ((create 2 .graphtypeDirected).addEdge 0 1).Covered ∧
        ((create 2 .graphtypeDirected).addEdge 0 1).EdgesOnce .dotStrict :=
  printsFaithfully_iff (Built.create.addEdge (by decide) (by decide)).plain .dotStrict
    ((DFS.emptyState : DFS.State Int32).data (create 2 .graphtypeDirected)) .cout

/-- A vertex without an edge is not written, and an undirected edge is written from
both ends. -/
theorem not_printsFaithfully :
    ¬ (create 1 .graphtypeDirected).PrintsFaithfully .cout
        ((create 1 .graphtypeDirected).printDot .dotStrict) ∧
      ¬ ((create 2 .graphtypeUndirected).addEdge 0 1).PrintsFaithfully .cout
        (((create 2 .graphtypeUndirected).addEdge 0 1).printDot .dotNonstrict) := by
  have lonely : (create 1 .graphtypeDirected).Plain 1 := .create 1 .graphtypeDirected
  have joined : ((create 2 .graphtypeUndirected).addEdge 0 1).Plain 2 :=
    (Built.create.addEdge (by decide) (by decide)).plain
  rw [lonely.printDot_iff, joined.printDot_iff]
  constructor
  · rintro ⟨covered, -⟩
    simpa [Edge, create_vertex, Vertex.create] using covered 0 (by decide)
  · rintro ⟨-, merged | directed | once⟩
    · cases merged
    · cases directed
    · exact once 0 1 (by decide) (by decide)

end Graph

end Pmud.Graphs
