import Pmud.Graphs.BFS

/-! # Printing paths

`_printPath` and `printPath` of `graph/include/common.h`. A program writes to
`cout` and to streams of its own.
-/

namespace Pmud.Graphs

open Foundation

inductive OStream
  | cout
  | opened (id : Nat)
  deriving DecidableEq, Repr

structure Write where
  output : OStream
  text : String
  deriving DecidableEq, Repr

/-- `output << text << …` -/
def OStream.put (output : OStream) (texts : List String) : List Write :=
  texts.map fun text => { output := output, text := text }

/-- What one stream has got after all writes. -/
def written (output : OStream) (writes : List Write) : String :=
  String.join ((writes.filter (·.output = output)).map Write.text)

namespace Graph

/-- `operator<<` of a vertex. -/
def text (graph : Graph) (v : Nat) : String :=
  toString ((graph.vertex v).data.getD (graph.vertex v).index)

/-- `none` when the recursion goes deeper than `fuel` calls. The recursive call
is made without the stream, which is `cout` by default. -/
def _printPath (graph : Graph) (s : Nat) (pi : Nat → Int) :
    Nat → Nat → (output : OStream := .cout) → Option (List Write)
  | 0, _, _ => none
  | fuel + 1, v, output =>
      if v = s then some (output.put [graph.text v])
      else if pi v = invalidVertex then
        some (output.put
          ["No path from ", graph.text s, " to ", graph.text v, " exists.", "\n"])
      else
        (graph._printPath s pi fuel (pi v).toNat).map fun writes =>
          writes ++ output.put [" -> ", graph.text v]

def printPath (fuel : Nat) (graph : Graph) (s v : Nat) (pi : Nat → Int)
    (output : OStream := .cout) : Option (List Write) :=
  (graph._printPath s pi fuel v output).map fun writes => writes ++ output.put ["\n"]

/-- `output` has got a path of so many edges and nothing else was written. -/
def PrintsPath (graph : Graph) (s v : Nat) (steps : Int) (output : OStream)
    (writes : List Write) : Prop :=
  ∃ path, Route graph.Edge s v path ∧ (path.length : Int) = steps + 1 ∧
    written output writes = " -> ".intercalate (path.map graph.text) ++ "\n" ∧
    ∀ other, other ≠ output → written other writes = ""

end Graph

/-! ## Writing -/

@[simp]
theorem written_append (output : OStream) (first later : List Write) :
    written output (first ++ later) = written output first ++ written output later := by
  simp [written, String.join_append]

@[simp]
theorem written_put_self (output : OStream) (texts : List String) :
    written output (output.put texts) = String.join texts := by
  simp [written, OStream.put, List.filter_map, Function.comp_def]

theorem written_put_of_ne {output other : OStream} (different : other ≠ output)
    (texts : List String) : written other (output.put texts) = "" := by
  have none : (output.put texts).filter (·.output = other) = [] := by
    simp [OStream.put, Ne.symm different]
  simp [written, none]

namespace Graph

theorem text_ne_empty (graph : Graph) (v : Nat) : graph.text v ≠ "" := by
  unfold text
  cases (graph.vertex v).data.getD (graph.vertex v).index with
  | ofNat number => exact Nat.repr_ne_empty
  | negSucc number =>
      intro empty
      have lengths := congrArg String.length empty
      simp [Int.repr, toString] at lengths

theorem _printPath_source (graph : Graph) (s : Nat) (pi : Nat → Int) (fuel : Nat)
    (output : OStream) :
    graph._printPath s pi (fuel + 1) s output = some (output.put [graph.text s]) :=
  if_pos rfl

/-- One call prints one vertex to its stream, and all others go to `cout`. -/
theorem _printPath_parent (graph : Graph) {s u v : Nat} {pi : Nat → Int} (fuel : Nat)
    (output : OStream) (other : v ≠ s) (parent : pi v = (u : Int)) :
    graph._printPath s pi (fuel + 1) v output =
      (graph._printPath s pi fuel u).map fun writes =>
        writes ++ output.put [" -> ", graph.text v] := by
  have valid : pi v ≠ invalidVertex := by
    rw [parent, invalidVertex]
    omega
  rw [_printPath, if_neg other, if_neg valid, parent, Int.toNat_natCast]

theorem intercalate_snoc (graph : Graph) {path : List Nat} (nonempty : path ≠ []) (v : Nat) :
    " -> ".intercalate ((path ++ [v]).map graph.text) =
      " -> ".intercalate (path.map graph.text) ++ " -> " ++ graph.text v := by
  rw [List.map_append, String.intercalate_append_of_ne_nil (by simpa using nonempty) (by simp),
    List.map_singleton, String.intercalate_singleton]

theorem intercalate_ne_empty (graph : Graph) {path : List Nat} (nonempty : path ≠ []) :
    " -> ".intercalate (path.map graph.text) ≠ "" := by
  cases path with
  | nil => exact absurd rfl nonempty
  | cons v rest =>
      cases rest with
      | nil => simpa using graph.text_ne_empty v
      | cons w others => simp

/-! ## The paths of a search -/

section Frontier

variable {graph : Graph} {s : Nat} {done : List Nat} {state : BFS.State}
  (frontier : BFS.Frontier graph s done state)
include frontier

/-- On `cout` the path to a vertex is the path to its parent and one vertex
more. The induction is on the distance. -/
theorem prints_cout {steps v : Nat} (pushed : v ∈ state.pushed) (d : state.d v = (steps : Int)) :
    ∃ path, Route graph.Edge s v path ∧ path.length = steps + 1 ∧
      ∀ fuel, steps < fuel → ∃ writes, graph._printPath s state.pi fuel v = some writes ∧
        written .cout writes = " -> ".intercalate (path.map graph.text) ∧
        ∀ other, other ≠ .cout → written other writes = "" := by
  induction steps generalizing v with
  | zero =>
      have same : v = s := by
        by_contra other
        rcases frontier.tree v pushed other with ⟨u, above, -, -, rise⟩
        rcases frontier.walk u above with ⟨before, -, -, dU⟩
        omega
      subst same
      refine ⟨[v], .singleton graph.Edge v, rfl, ?_⟩
      intro fuel enough
      cases fuel with
      | zero => omega
      | succ fuel =>
          refine ⟨_, graph._printPath_source v state.pi fuel .cout, by simp, ?_⟩
          exact fun other different => written_put_of_ne different _
  | succ steps induction =>
      have other : v ≠ s := by
        intro same
        rw [same, frontier.source.2.1] at d
        omega
      rcases frontier.tree v pushed other with ⟨u, above, parent, edge, rise⟩
      rcases induction above (by omega) with ⟨path, route, length, prints⟩
      refine ⟨path ++ [v], route.snoc edge, by simp [length], ?_⟩
      intro fuel enough
      cases fuel with
      | zero => omega
      | succ fuel =>
          rcases prints fuel (by omega) with ⟨writes, ends, onCout, nowhereElse⟩
          refine ⟨writes ++ OStream.cout.put [" -> ", graph.text v], ?_, ?_, ?_⟩
          · rw [graph._printPath_parent fuel .cout other parent, ends, Option.map_some]
          · rw [written_append, onCout, graph.intercalate_snoc route.ne_nil]
            simp [String.append_assoc]
          · intro stream different
            rw [written_append, nowhereElse stream different, written_put_of_ne different]
            rfl

theorem prints_of_source (fuel : Nat) (output : OStream) :
    ∃ writes, printPath (fuel + 1) graph s s state.pi output = some writes ∧
      graph.PrintsPath s s (state.d s) output writes := by
  refine ⟨_, by rw [printPath, _printPath_source, Option.map_some], [s],
    .singleton graph.Edge s, ?_, by simp, ?_⟩
  · rw [frontier.source.2.1]
    rfl
  · intro other different
    rw [written_append, written_put_of_ne different, written_put_of_ne different]
    rfl

theorem prints_of_cout {fuel steps v : Nat} (pushed : v ∈ state.pushed)
    (d : state.d v = (steps : Int)) (enough : steps < fuel) :
    ∃ writes, printPath fuel graph s v state.pi = some writes ∧
      graph.PrintsPath s v (state.d v) .cout writes := by
  rcases prints_cout frontier pushed d with ⟨path, route, length, prints⟩
  rcases prints fuel enough with ⟨writes, ends, onCout, nowhereElse⟩
  refine ⟨_, by rw [printPath, ends, Option.map_some], path, route, ?_, ?_, ?_⟩
  · rw [d, length]
    rfl
  · simp [onCout]
  · intro other different
    rw [written_append, nowhereElse other different, written_put_of_ne different]
    rfl

/-- All but the last vertex of a longer path go past a stream of the caller. -/
theorem strays_of_opened {fuel steps v : Nat} {output : OStream} (pushed : v ∈ state.pushed)
    (d : state.d v = (steps : Int)) (enough : steps < fuel) (opened : output ≠ .cout)
    (other : v ≠ s) :
    ∃ writes, printPath fuel graph s v state.pi output = some writes ∧
      written .cout writes ≠ "" := by
  rcases frontier.tree v pushed other with ⟨u, above, parent, edge, rise⟩
  rcases frontier.walk u above with ⟨before, -, -, dU⟩
  rcases prints_cout frontier above dU with ⟨path, route, length, prints⟩
  cases fuel with
  | zero => omega
  | succ fuel =>
      rcases prints fuel (by omega) with ⟨writes, ends, onCout, -⟩
      refine ⟨writes ++ output.put [" -> ", graph.text v] ++ output.put ["\n"], ?_, ?_⟩
      · rw [printPath, graph._printPath_parent fuel output other parent, ends, Option.map_some,
          Option.map_some]
      · rw [written_append, written_append, onCout, written_put_of_ne opened.symm,
          written_put_of_ne opened.symm, String.append_empty, String.append_empty]
        exact graph.intercalate_ne_empty route.ne_nil

end Frontier

/-- The path reaches the stream of the caller if that is `cout` itself or the
path has no edge. -/
theorem printsPath_iff {graph : Graph} (inRange : graph.InRange) {s : Nat}
    (inside : s < graph.V) {fuel : Nat} (enough : graph.V ≤ fuel) :
    ∃ data, BFS.breadthFirstSearch fuel (some graph) s = some (.ok data) ∧
      ∀ v, graph.Reachable s v → ∀ output, ∃ writes,
        printPath fuel graph s v data.pi output = some writes ∧
          (graph.PrintsPath s v (data.d v) output writes ↔ output = .cout ∨ v = s) := by
  rcases BFS.search_ends inRange inside enough with ⟨state, done, ends, frontier, empty⟩
  refine ⟨state.data graph, by simp [BFS.breadthFirstSearch, ends], ?_⟩
  intro v reachable output
  have pushed := (frontier.pushed_iff_reachable empty).mpr reachable
  rcases frontier.walk v pushed with ⟨steps, short, -, d⟩
  have bound : steps < fuel := by
    have length := frontier.pushed_length_le
    omega
  by_cases same : v = s
  · subst same
    cases fuel with
    | zero => omega
    | succ fuel =>
        rcases prints_of_source frontier fuel output with ⟨writes, ends, prints⟩
        exact ⟨writes, ends, fun _ => .inr rfl, fun _ => prints⟩
  · by_cases onCout : output = .cout
    · subst onCout
      rcases prints_of_cout frontier pushed d bound with ⟨writes, ends, prints⟩
      exact ⟨writes, ends, fun _ => .inl rfl, fun _ => prints⟩
    · rcases strays_of_opened frontier pushed d bound onCout same with ⟨writes, ends, strays⟩
      refine ⟨writes, ends, ?_, fun either => absurd either (not_or.mpr ⟨onCout, same⟩)⟩
      intro prints
      rcases prints with ⟨path, -, -, -, nowhereElse⟩
      exact absurd (nowhereElse .cout (Ne.symm onCout)) strays

theorem printsPath_iff_sampleGraph :
    ∃ data, BFS.breadthFirstSearch 4 (some sampleGraph) 0 = some (.ok data) ∧
      ∀ v, sampleGraph.Reachable 0 v → ∀ output, ∃ writes,
        printPath 4 sampleGraph 0 v data.pi output = some writes ∧
          (sampleGraph.PrintsPath 0 v (data.d v) output writes ↔ output = .cout ∨ v = 0) :=
  printsPath_iff sampleGraph_inRange (by decide) (by decide)

/-- Along `0 -> 1 -> 2` the caller's stream gets the end of the path only. -/
theorem not_printsPath_of_opened :
    ∃ data writes, BFS.breadthFirstSearch 4 (some sampleGraph) 0 = some (.ok data) ∧
      sampleGraph.Reachable 0 2 ∧
      printPath 4 sampleGraph 0 2 data.pi (.opened 0) = some writes ∧
      written .cout writes = "0 -> 1" ∧ written (.opened 0) writes = " -> 2\n" ∧
      ¬ sampleGraph.PrintsPath 0 2 (data.d 2) (.opened 0) writes := by
  have printed : (BFS.search 4 sampleGraph 0).bind (fun state =>
      printPath 4 sampleGraph 0 2 state.pi (.opened 0)) =
        some [⟨.cout, "0"⟩, ⟨.cout, " -> "⟩, ⟨.cout, "1"⟩, ⟨.opened 0, " -> "⟩,
          ⟨.opened 0, "2"⟩, ⟨.opened 0, "\n"⟩] := by
    decide
  rcases Option.bind_eq_some_iff.mp printed with ⟨state, searched, prints⟩
  have onCout : written .cout [⟨.cout, "0"⟩, ⟨.cout, " -> "⟩, ⟨.cout, "1"⟩, ⟨.opened 0, " -> "⟩,
      ⟨.opened 0, "2"⟩, ⟨.opened 0, "\n"⟩] = "0 -> 1" := by
    decide
  refine ⟨state.data sampleGraph, _, by simp [BFS.breadthFirstSearch, searched], ?_, prints,
    onCout, by decide, ?_⟩
  · exact .tail (.tail .refl (by decide : sampleGraph.Edge 0 1))
      (by decide : sampleGraph.Edge 1 2)
  · intro holds
    rcases holds with ⟨path, -, -, -, nowhereElse⟩
    have nothing := nowhereElse .cout (by decide)
    rw [onCout] at nothing
    exact absurd nothing (by decide)

end Graph

end Pmud.Graphs
