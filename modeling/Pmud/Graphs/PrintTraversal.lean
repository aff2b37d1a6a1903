import Pmud.Graphs.Applications

/-! # Printing a traversal

`operator<<` of `DFS::SearchData` in `graph/include/DFS.h` and the program
`dfs-search` of `graph/application`.
-/

namespace Pmud.Graphs

open Foundation

/-- The stream is there when a program starts. -/
def cerr : OStream := .opened 2

namespace DFS

/-- The times of a traversal differ, so that `sort` has one result only. -/
def sortByDiscovery (source : List Int) : List (Nat × Int) :=
  ((List.range source.length).map fun i => (i, source.getD i 0)).mergeSort
    fun a b => a.2 ≤ b.2

def printDataVec (graph : Graph) (tv : List (Nat × Int)) (output : OStream) : List Write :=
  tv.flatMap fun t =>
    output.put ["(", setw 3 (graph.text t.1), ",", setw 3 (toString t.2), ") "]

/-- `pGraph` is what `lock` gives, and a vector has an entry for each vertex. -/
def SearchData.print (data : SearchData) (pGraph : Option Graph) (output : OStream) :
    List Write :=
  match pGraph with
  | none => output.put ["graph is no longer available.", "\n"]
  | some graph =>
      output.put [" d: "] ++
        (printDataVec graph (sortByDiscovery ((List.range graph.V).map data.d)) output ++
        (output.put ["\n"] ++
        (output.put [" f: "] ++
        (printDataVec graph (sortByDiscovery ((List.range graph.V).map data.f)) output ++
        (output.put ["\n"] ++
        (output.put ["pi: "] ++
        graph.vertices.flatMap fun x =>
          output.put ["(", setw 3 x.text, ",", setw 3 (toString (data.pi x.index)), ") "]))))))

end DFS

namespace Graph

/-- `none` when `fuel` does not suffice. -/
def dfsSearchMain (fuel : Nat) (arguments : List Nat) (rand : Nat → Nat × Nat) :
    Option (List Write) :=
  let graph := random 10 .graphtypeDirected arguments rand
  match DFS.depthFirstSearch fuel (some graph) 4 with
  | some (.ok data) => some
      (cerr.put ["Performed DFS on the graph:", "\n"] ++
        (graph.printStructure cerr ++
        (cerr.put ["With the following search/traversal data:", "\n"] ++
        (data.print (some graph) cerr ++
        (cerr.put ["\n"] ++
        graph.printDotDfsAnnotate .dotStrict data)))))
  | _ => none

/-! ## Reading -/

/-- The two parts of a pair, without the blanks and the bracket in front of it. -/
def pairParts (pair : List Char) : List Char × List Char :=
  splitFirst ',' (pair.filter fun c => c ≠ ' ' && c ≠ '(')

/-- Each pair ends with a bracket. -/
def readPairs (source : String) : List (List Char × List Char) :=
  (linesFrom ')' [] source.toList).map pairParts

/-- The vertices with their times, the earliest first. -/
def ShowsTimes (V : Nat) (time : Nat → Int) (line : String) : Prop :=
  ∃ order : List Nat, order.Perm (List.range V) ∧ order.Pairwise (fun u v => time u < time v) ∧
    readPairs line = order.map fun v => (dotName v, (toString (time v)).toList)

/-- The vertices with their parents. -/
def ShowsParents (V : Nat) (pi : Nat → Int) (line : String) : Prop :=
  readPairs line = (List.range V).map fun v => (dotName v, (toString (pi v)).toList)

/-! ## Pairs -/

def IsNumeral (word : List Char) : Prop := ∀ c ∈ word, c.isDigit = true ∨ c = '-'

theorem isNumeral_dotName (v : Nat) : IsNumeral (dotName v) :=
  fun _ member => .inl (isDigit_of_mem_dotName member)

theorem isNumeral_toString (n : Int) : IsNumeral (toString n).toList := by
  cases n with
  | ofNat v => simpa [toString, Int.repr, dotName] using isNumeral_dotName v
  | negSucc v =>
      have digits := isNumeral_dotName (v + 1)
      simpa [IsNumeral, toString, Int.repr, dotName] using digits

theorem IsNumeral.not_mem {word : List Char} (numeral : IsNumeral word) {c : Char}
    (symbol : c.isDigit = false) (other : c ≠ '-') : c ∉ word := by
  intro member
  rcases numeral c member with digit | sign
  · rw [symbol] at digit
    cases digit
  · exact other sign

/-- A pair as it is printed. -/
def pairText (pair : List Char × List Char) : List Char :=
  '(' :: (pair.1.leftpad 3 ' ' ++ ',' :: pair.2.leftpad 3 ' ')

theorem pairParts_text {pair : List Char × List Char} (first : IsNumeral pair.1)
    (second : IsNumeral pair.2) (count : Nat) :
    pairParts (List.replicate count ' ' ++ pairText pair) = pair := by
  have kept {word : List Char} (numeral : IsNumeral word) :
      word.filter (fun c => c ≠ ' ' && c ≠ '(') = word := by
    rw [List.filter_eq_self]
    intro c member
    have blank := numeral.not_mem (c := ' ') rfl (by decide)
    have bracket := numeral.not_mem (c := '(') rfl (by decide)
    rw [Bool.and_eq_true, decide_eq_true_iff, decide_eq_true_iff]
    exact ⟨fun same => blank (same ▸ member), fun same => bracket (same ▸ member)⟩
  have symbols : (List.replicate count ' ' ++ pairText pair).filter
      (fun c => c ≠ ' ' && c ≠ '(') = pair.1 ++ ',' :: pair.2 := by
    simp only [pairText, List.leftpad, List.filter_append, List.filter_cons, kept first,
      kept second]
    simp
  rw [pairParts, symbols, splitFirst_append ',' (first.not_mem rfl (by decide))]

theorem readPairs_texts {pairs : List (List Char × List Char)}
    (each : ∀ pair ∈ pairs, IsNumeral pair.1 ∧ IsNumeral pair.2) {source : String}
    (printed : source.toList = pairs.flatMap fun pair => pairText pair ++ [')', ' ']) :
    readPairs source = pairs := by
  have all : ∀ count, (linesFrom ')' (List.replicate count ' ')
      (pairs.flatMap fun pair => pairText pair ++ [')', ' '])).map pairParts = pairs := by
    clear printed
    induction pairs with
    | nil => exact fun _ => rfl
    | cons pair rest induction =>
        intro count
        rw [List.forall_mem_cons] at each
        have single : ')' ∉ pairText pair := by
          have left := each.1.1.not_mem (c := ')') rfl (by decide)
          have right := each.1.2.not_mem (c := ')') rfl (by decide)
          simp [pairText, List.leftpad, left, right]
        rw [List.flatMap_cons, List.append_assoc, List.cons_append,
          (lines_of_terminated ')' _ single _).1, List.map_cons,
          pairParts_text each.1.1 each.1.2]
        exact congrArg (pair :: ·) (induction each.2 1)
  rw [readPairs, printed]
  exact all 0

/-! ## The lines of a traversal -/

/-- Sorting by times that differ has one result. -/
theorem exists_order {V : Nat} {time : Nat → Int} (distinct : ((List.range V).map time).Nodup) :
    ∃ order : List Nat, order.Perm (List.range V) ∧
      order.Pairwise (fun u v => time u < time v) ∧
      DFS.sortByDiscovery ((List.range V).map time) = order.map fun v => (v, time v) := by
  have source : (List.range ((List.range V).map time).length).map
      (fun i => (i, ((List.range V).map time).getD i 0)) =
      (List.range V).map fun v => (v, time v) := by
    rw [List.length_map, List.length_range]
    apply List.map_congr_left
    intro v member
    rw [List.getD_map_range (List.mem_range.mp member)]
  have sorted : (DFS.sortByDiscovery ((List.range V).map time)).Pairwise
      fun a b => a.2 ≤ b.2 := by
    have pairs : (((List.range V).map fun v => (v, time v)).mergeSort
        fun a b => decide (a.2 ≤ b.2)).Pairwise fun a b => decide (a.2 ≤ b.2) :=
      List.pairwise_mergeSort (fun _ _ _ => by simpa using le_trans)
        (fun a b => by simpa using le_total a.2 b.2) _
    rw [DFS.sortByDiscovery, source]
    simpa using pairs
  have permuted : (DFS.sortByDiscovery ((List.range V).map time)).Perm
      ((List.range V).map fun v => (v, time v)) := by
    rw [DFS.sortByDiscovery, source]
    exact List.mergeSort_perm _ _
  generalize DFS.sortByDiscovery ((List.range V).map time) = pairs at *
  have labelled : pairs = (pairs.map Prod.fst).map fun v => (v, time v) := by
    rw [List.map_map, eq_comm]
    apply List.map_eq_self
    intro pair member
    rcases List.mem_map.mp (permuted.subset member) with ⟨v, -, rfl⟩
    rfl
  have order : (pairs.map Prod.fst).Perm (List.range V) := by
    have names := permuted.map Prod.fst
    rwa [List.map_map, show Prod.fst ∘ (fun v => (v, time v)) = id from rfl, List.map_id] at names
  refine ⟨pairs.map Prod.fst, order, ?_, labelled⟩
  have apart : ((pairs.map Prod.fst).map time).Nodup := (order.map time).nodup_iff.mpr distinct
  rw [labelled, List.pairwise_map] at sorted
  exact (List.pairwise_map.mp apart).imp₂
    (fun _ _ other least => lt_of_le_of_ne least other) sorted

section Text

variable {graph : Graph} {V : Nat} (plain : graph.Plain V)
include plain

theorem Plain.readPairs_print {vertices : List Nat} (within : ∀ v ∈ vertices, v < V)
    (value : Nat → Int) (output : OStream) :
    readPairs (written output (vertices.flatMap fun v =>
        output.put ["(", setw 3 (graph.text v), ",", setw 3 (toString (value v)), ") "])) =
      vertices.map fun v => (dotName v, (toString (value v)).toList) := by
  apply readPairs_texts
  · rw [List.forall_mem_map]
    exact fun v _ => ⟨isNumeral_dotName v, isNumeral_toString (value v)⟩
  · rw [toList_written_puts, List.flatMap_map]
    apply List.flatMap_congr
    intro v member
    simp [setw, plain.toList_text (within v member), pairText]

theorem Plain.showsTimes {time : Nat → Int} (distinct : ((List.range V).map time).Nodup)
    (output : OStream) :
    ShowsTimes V time (written output
      (DFS.printDataVec graph (DFS.sortByDiscovery ((List.range V).map time)) output)) := by
  rcases exists_order distinct with ⟨order, permuted, ascending, sorted⟩
  refine ⟨order, permuted, ascending, ?_⟩
  rw [sorted, DFS.printDataVec, List.flatMap_map]
  exact plain.readPairs_print
    (fun v member => List.mem_range.mp (permuted.subset member)) time output

theorem Plain.showsParents (pi : Nat → Int) (output : OStream) :
    ShowsParents V pi (written output (graph.vertices.flatMap fun x =>
      output.put ["(", setw 3 x.text, ",", setw 3 (toString (pi x.index)), ") "])) := by
  have pairs : (graph.vertices.flatMap fun x =>
      output.put ["(", setw 3 x.text, ",", setw 3 (toString (pi x.index)), ") "]) =
      (List.range V).flatMap fun v =>
        output.put ["(", setw 3 (graph.text v), ",", setw 3 (toString (pi v)), ") "] := by
    rw [plain.vertices_eq, List.flatMap_map]
    apply List.flatMap_congr
    intro v member
    rw [plain.index v (List.mem_range.mp member)]
    rfl
  rw [pairs]
  exact plain.readPairs_print (fun v => List.mem_range.mp) pi output

/-- What `operator<<` prints for a traversal whose times differ. -/
theorem Plain.print_shows {data : DFS.SearchData}
    (discovered : ((List.range V).map data.d).Nodup)
    (finished : ((List.range V).map data.f).Nodup) (output : OStream) :
    ∃ starts finishes parents,
      written output (data.print (some graph) output) =
        " d: " ++ starts ++ "\n f: " ++ finishes ++ "\npi: " ++ parents ∧
      ShowsTimes V data.d starts ∧ ShowsTimes V data.f finishes ∧
      ShowsParents V data.pi parents := by
  refine ⟨_, _, _, ?_, plain.showsTimes discovered output, plain.showsTimes finished output,
    plain.showsParents data.pi output⟩
  have count : graph.V = V := plain.numVertices
  have second : "\n f: " = "\n" ++ " f: " := rfl
  have third : "\npi: " = "\n" ++ "pi: " := rfl
  rw [second, third]
  simp only [DFS.SearchData.print, count, written_append, written_put_self, String.join_cons,
    String.join_nil, String.append_empty, String.append_assoc]

end Text

/-! ## The streams -/

/-- Nothing goes to another stream. -/
def OnlyTo (output : OStream) (writes : List Write) : Prop :=
  ∀ write ∈ writes, write.output = output

theorem OnlyTo.put (output : OStream) (texts : List String) :
    OnlyTo output (output.put texts) := by
  rw [OnlyTo, OStream.put, List.forall_mem_map]
  exact fun _ _ => rfl

theorem OnlyTo.append {output : OStream} {first later : List Write} (left : OnlyTo output first)
    (right : OnlyTo output later) : OnlyTo output (first ++ later) := by
  rw [OnlyTo, List.forall_mem_append]
  exact ⟨left, right⟩

theorem OnlyTo.flatMap {α : Type} {output : OStream} {block : α → List Write} (items : List α)
    (each : ∀ item, OnlyTo output (block item)) : OnlyTo output (items.flatMap block) := by
  intro write member
  rcases List.mem_flatMap.mp member with ⟨item, -, inside⟩
  exact each item write inside

theorem OnlyTo.written_other {output other : OStream} {writes : List Write}
    (only : OnlyTo output writes) (different : other ≠ output) : written other writes = "" := by
  have none : writes.filter (·.output = other) = [] := by
    rw [List.filter_eq_nil_iff]
    intro write member
    rw [only write member]
    simpa using different.symm
  rw [written, none]
  rfl

/-- What goes to another stream does not change what is drawn. -/
theorem PrintsFaithfully.behind {graph : Graph} {output other : OStream}
    {first later : List Write} (different : output ≠ other) (only : OnlyTo other first)
    (faithful : graph.PrintsFaithfully output later) :
    graph.PrintsFaithfully output (first ++ later) := by
  rw [PrintsFaithfully, written_append, only.written_other different, String.empty_append]
  exact faithful

theorem onlyTo_printStructure (graph : Graph) (output : OStream) :
    OnlyTo output (graph.printStructure output) :=
  .flatMap _ fun _ => (OnlyTo.put output _).append
    ((OnlyTo.flatMap _ fun _ => .put output _).append (.put output _))

theorem onlyTo_printDotDfsAnnotate (graph : Graph) (strict : DotGraphType)
    (data : DFS.SearchData) (output : OStream) :
    OnlyTo output (graph.printDotDfsAnnotate strict data output) := by
  have header : OnlyTo output (graph.dotHeader strict output) := by
    apply OnlyTo.append
    · split
      · exact .put output _
      · exact fun _ none => absurd none List.not_mem_nil
    · split <;> exact .put output _
  have edges : OnlyTo output (graph.dotEdges "  " output) :=
    .flatMap _ fun _ => .flatMap _ fun _ => .put output _
  exact header.append ((OnlyTo.flatMap _ fun _ => .put output _).append
    (edges.append (.put output _)))

theorem onlyTo_printSearchData (graph : Graph) (data : DFS.SearchData) (output : OStream) :
    OnlyTo output (data.print (some graph) output) := by
  have pairs (tv : List (Nat × Int)) : OnlyTo output (DFS.printDataVec graph tv output) :=
    .flatMap _ fun _ => .put output _
  exact (OnlyTo.put output _).append ((pairs _).append ((OnlyTo.put output _).append
    ((OnlyTo.put output _).append ((pairs _).append ((OnlyTo.put output _).append
    ((OnlyTo.put output _).append (.flatMap _ fun _ => .put output _)))))))

end Graph

namespace DFS

theorem Brackets.distinct {graph : Graph} {s : Nat} {data : SearchData}
    (brackets : Brackets graph s data) :
    ((List.range graph.V).map data.d).Nodup ∧ ((List.range graph.V).map data.f).Nodup := by
  have clock : ((List.range (2 * graph.V)).map fun time : Nat => (time : Int)).Nodup :=
    List.nodup_range.map Nat.cast_injective
  have both := brackets.times.nodup_iff.mpr clock
  exact ⟨(List.nodup_append.mp both).1, (List.nodup_append.mp both).2.1⟩

end DFS

namespace Graph

/-- `dfs-search` prints the graph that is drawn and a traversal of it, from vertex 4 on. -/
theorem dfsSearchMain_shows {V N fuel : Nat} {arguments : List Nat}
    (size : sizes 10 arguments = (V, N)) (inside : 4 < V) (rand : Nat → Nat × Nat)
    (enough : V ≤ fuel) (few : 2 * (V : Int) ≤ intMax + 1) :
    ∃ writes data listing starts finishes parents,
      dfsSearchMain fuel arguments rand = some writes ∧
      written cerr writes = "Performed DFS on the graph:\n" ++ listing ++
        "With the following search/traversal data:\n d: " ++ starts ++ "\n f: " ++ finishes ++
        "\npi: " ++ parents ++ "\n" ∧
      Lists V (Drawn .graphtypeDirected V N rand) listing ∧
      DFS.Brackets (random 10 .graphtypeDirected arguments rand) 4 data ∧
      ShowsTimes V data.d starts ∧ ShowsTimes V data.f finishes ∧
      ShowsParents V data.pi parents ∧
      (random 10 .graphtypeDirected arguments rand).PrintsFaithfully .cout writes := by
  have positive : 0 < V := by omega
  have built : Built V .graphtypeDirected (random 10 .graphtypeDirected arguments rand) :=
    built_random size positive rand
  have plain := built.plain
  have edges : (random 10 .graphtypeDirected arguments rand).Edge =
      Drawn .graphtypeDirected V N rand :=
    edge_random_eq size positive rand
  generalize drawn : random 10 .graphtypeDirected arguments rand = graph at *
  have count : graph.V = V := plain.numVertices
  rcases DFS.depthFirstSearch_traversed plain.inRange (count ▸ inside) (count ▸ enough)
    (count ▸ few) with ⟨children, rest, state, ends, traversed⟩
  have brackets := traversed.brackets rfl
  have distinct := brackets.distinct
  rw [count] at distinct
  rcases plain.print_shows distinct.1 distinct.2 cerr with
    ⟨starts, finishes, parents, printed, discovered, finished, parented⟩
  have ran : dfsSearchMain fuel arguments rand = some
      (cerr.put ["Performed DFS on the graph:", "\n"] ++
        (graph.printStructure cerr ++
        (cerr.put ["With the following search/traversal data:", "\n"] ++
        ((state.data graph).print (some graph) cerr ++
        (cerr.put ["\n"] ++
        graph.printDotDfsAnnotate .dotStrict (state.data graph)))))) := by
    simp only [dfsSearchMain, drawn, ends]
  have apart : cerr ≠ .cout := by decide
  refine ⟨_, state.data graph, _, starts, finishes, parents, ran, ?_,
    edges ▸ plain.lists_print cerr, brackets, discovered, finished, parented, ?_⟩
  · have first : "Performed DFS on the graph:\n" = "Performed DFS on the graph:" ++ "\n" := rfl
    have second : "With the following search/traversal data:\n d: " =
        "With the following search/traversal data:" ++ ("\n" ++ " d: ") := rfl
    rw [first, second]
    simp only [printed, written_append, written_put_self, String.join_cons, String.join_nil,
      String.append_empty, String.append_assoc,
      (onlyTo_printDotDfsAnnotate graph .dotStrict (state.data graph) .cout).written_other apart]
  · have faithful := (plain.printDotDfsAnnotate_iff .dotStrict (state.data graph) .cout).mpr
      (.inl rfl)
    apply PrintsFaithfully.behind apart.symm (.put cerr _)
    apply PrintsFaithfully.behind apart.symm (onlyTo_printStructure graph cerr)
    apply PrintsFaithfully.behind apart.symm (.put cerr _)
    apply PrintsFaithfully.behind apart.symm (onlyTo_printSearchData graph _ cerr)
    exact .behind apart.symm (.put cerr _) faithful

theorem dfsSearchMain_shows_loop :
    ∃ writes data listing starts finishes parents,
      dfsSearchMain 5 [5, 1] (fun _ => (7, 3)) = some writes ∧
      written cerr writes = "Performed DFS on the graph:\n" ++ listing ++
        "With the following search/traversal data:\n d: " ++ starts ++ "\n f: " ++ finishes ++
        "\npi: " ++ parents ++ "\n" ∧
      Lists 5 (Drawn .graphtypeDirected 5 1 fun _ => (7, 3)) listing ∧
      DFS.Brackets (random 10 .graphtypeDirected [5, 1] fun _ => (7, 3)) 4 data ∧
      ShowsTimes 5 data.d starts ∧ ShowsTimes 5 data.f finishes ∧
      ShowsParents 5 data.pi parents ∧
      (random 10 .graphtypeDirected [5, 1] fun _ => (7, 3)).PrintsFaithfully .cout writes :=
  dfsSearchMain_shows rfl (by decide) _ (by decide) (by decide)

end Graph

end Pmud.Graphs
