import Mathlib.Data.Nat.Digits.Defs
import Pmud.Foundation.Fields
import Pmud.Foundation.Lines
import Pmud.Graphs.PrintDot

/-! # Printing lists and tables

`printStructure` and `printMatrix` of `graph/include/common.h`, and what a reader
finds in the two texts.
-/

namespace Pmud.Graphs

open Foundation

def present : String := "*"

def absent : String := " "

/-- `setw(width) << text` -/
def setw (width : Nat) (text : String) : String := String.ofList (text.toList.leftpad width ' ')

namespace Graph

def printStructure (graph : Graph) (output : OStream := .cout) : List Write :=
  graph.vertices.flatMap fun x =>
    output.put [x.text] ++
      ((x.adj.flatMap fun y => output.put [" ", "--", " ", graph.text y]) ++ output.put ["\n"])

/-- The texts of the cells. -/
def matrixRows (graph : Graph) : List (List String) :=
  graph.vertices.foldl
    (fun rows x => x.adj.foldl
      (fun rows y => rows.modify x.index fun row => row.set (graph.vertex y).index present) rows)
    (List.replicate graph.V (List.replicate graph.V absent))

def printMatrix (graph : Graph) (output : OStream := .cout) : List Write :=
  let V := graph.numVertices
  let rows := graph.matrixRows
  output.put ["      "] ++
    (((List.range V).flatMap fun j => output.put [setw 3 (graph.text j), " "]) ++
    (output.put ["\n"] ++
    (output.put ["    +"] ++
    (((List.range V).flatMap fun _ => output.put ["----"]) ++
    (output.put ["-", "\n"] ++
    ((List.range V).flatMap fun i =>
      output.put [setw 3 (graph.text i), " | "] ++
        (((List.range V).flatMap fun j => output.put ["  ", (rows.getD i []).getD j "", " "]) ++
          output.put ["\n"])))))))

/-! ## Reading -/

/-- The lines of a text. -/
def textLines (source : String) : List (List Char) := linesFrom '\n' [] source.toList

/-- The names in a line. -/
def listedNames (line : List Char) : List Dot.Name :=
  (wordsFrom ' ' [] line).filter (· ≠ ['-', '-'])

/-- A vertex and its neighbours in each line. -/
def readStructure (source : String) : List (List Dot.Name) := (textLines source).map listedNames

/-- The mark of each of so many columns, each of which is as wide as its heading. -/
def markedCells (count : Nat) (line : List Char) : List Bool :=
  let cells := (line.dropWhile (· ≠ '|')).drop 2
  (List.range count).map fun column => cells.getD (4 * column + 2) ' ' = '*'

/-- The marks below the heading, which has a name for each column. -/
def readMatrix (source : String) : List (List Bool) :=
  match textLines source with
  | heading :: _ :: rows => rows.map (markedCells (wordsFrom ' ' [] heading).length)
  | _ => []

/-- In the list each vertex is followed by those that the relation leads to, once each. -/
def Lists (V : Nat) (edge : Nat → Nat → Prop) (listing : String) : Prop :=
  ∃ neighbours : Nat → List Nat,
    (readStructure listing = (List.range V).map fun u => (u :: neighbours u).map dotName) ∧
    ∀ u < V, (neighbours u).Nodup ∧ ∀ v, v ∈ neighbours u ↔ edge u v

/-- The marks of the table are this relation. -/
def Tabulates (V : Nat) (edge : Nat → Nat → Prop) (table : String) : Prop :=
  ∃ marks : Nat → Nat → Bool,
    (readMatrix table = (List.range V).map fun u => (List.range V).map (marks u)) ∧
    ∀ u v, marks u v = true ↔ edge u v

/-! ## Listing -/

theorem dotName_ne_nil (v : Nat) : dotName v ≠ [] := Nat.toDigits_ne_nil

theorem not_mem_dotName {c : Char} (symbol : c.isDigit = false) (v : Nat) : c ∉ dotName v := by
  intro member
  rw [isDigit_of_mem_dotName member] at symbol
  cases symbol

/-- The names in front of a list of names, each behind two dashes. -/
theorem listedNames_line (v : Nat) (neighbours : List Nat) :
    listedNames (dotName v ++ neighbours.flatMap fun y => [' ', '-', '-', ' '] ++ dotName y) =
      (v :: neighbours).map dotName := by
  have kept (v : Nat) : dotName v ≠ ['-', '-'] := by
    intro same
    exact not_mem_dotName (c := '-') rfl v (by simp [same])
  have plain (v : Nat) : ' ' ∉ dotName v := not_mem_dotName rfl v
  induction neighbours generalizing v with
  | nil => simp [listedNames, wordsFrom_last ' ' (dotName_ne_nil v) (plain v), kept]
  | cons y rest induction =>
      have words : wordsFrom ' ' []
          (dotName v ++ (y :: rest).flatMap fun y => [' ', '-', '-', ' '] ++ dotName y) =
          dotName v :: ['-', '-'] :: wordsFrom ' ' []
            (dotName y ++ rest.flatMap fun y => [' ', '-', '-', ' '] ++ dotName y) := by
        rw [List.flatMap_cons, List.append_assoc, List.cons_append,
          wordsFrom_word ' ' (dotName_ne_nil v) (plain v)]
        exact congrArg _ (wordsFrom_word ' ' (List.cons_ne_nil '-' ['-']) (by decide) _)
      rw [listedNames, words, List.filter_cons_of_pos (by simp [kept]),
        List.filter_cons_of_neg (by simp), ← listedNames, induction y]
      rfl

/-- The line of a vertex. -/
def listing (graph : Graph) (u : Nat) : List Char :=
  dotName u ++ (graph.vertex u).adj.flatMap fun v => [' ', '-', '-', ' '] ++ dotName v

/-- The heading and the two borders of the table. -/
def heading (V : Nat) : List Char :=
  "      ".toList ++ (List.range V).flatMap fun v => (dotName v).leftpad 3 ' ' ++ [' ']

def border (V : Nat) : List Char :=
  "    +".toList ++ (List.range V).flatMap (fun _ => "----".toList) ++ ['-']

def cell (graph : Graph) (u v : Nat) : String := if graph.Edge u v then present else absent

def row (graph : Graph) (V u : Nat) : List Char :=
  (dotName u).leftpad 3 ' ' ++ (" | ".toList ++
    (List.range V).flatMap fun v => "  ".toList ++ (graph.cell u v).toList ++ [' '])

/-- One insertion after the other, item by item. -/
theorem toList_written_puts {α : Type} (output : OStream) (texts : α → List String)
    (items : List α) :
    (written output (items.flatMap fun item => output.put (texts item))).toList =
      items.flatMap fun item => (texts item).flatMap String.toList := by
  rw [toList_written_flatMap]
  apply List.flatMap_congr
  intro item _
  exact toList_written_put output (texts item)

section Text

variable {graph : Graph} {V : Nat} (plain : graph.Plain V)
include plain

theorem Plain.toList_printStructure (output : OStream) :
    (written output (graph.printStructure output)).toList =
      ((List.range V).map graph.listing).flatMap (· ++ ['\n']) := by
  rw [printStructure, plain.vertices_eq, toList_written_flatMap, List.flatMap_map,
    List.flatMap_map]
  apply List.flatMap_congr
  intro u member
  have within := List.mem_range.mp member
  have label : (graph.vertex u).text = graph.text u := rfl
  have neighbours : (written output ((graph.vertex u).adj.flatMap fun y =>
      output.put [" ", "--", " ", graph.text y])).toList =
      (graph.vertex u).adj.flatMap fun v => [' ', '-', '-', ' '] ++ dotName v := by
    rw [toList_written_puts]
    apply List.flatMap_congr
    intro v edge
    simp [plain.toList_text (plain.adj u within v edge)]
  rw [written_append, written_append, String.toList_append, String.toList_append, neighbours,
    toList_written_put, toList_written_put, label]
  simp [listing, plain.toList_text within]

theorem Plain.readStructure_print (output : OStream) :
    readStructure (written output (graph.printStructure output)) =
      (List.range V).map fun u => (u :: (graph.vertex u).adj).map dotName := by
  have single : ∀ line ∈ (List.range V).map graph.listing, '\n' ∉ line := by
    intro line member
    rcases List.mem_map.mp member with ⟨u, -, rfl⟩
    have noBreak (v : Nat) : '\n' ∉ dotName v := not_mem_dotName rfl v
    simp [listing, noBreak]
  rw [readStructure, textLines, plain.toList_printStructure, linesFrom_flatMap '\n' single,
    List.map_map]
  apply List.map_congr_left
  intro u _
  exact listedNames_line u (graph.vertex u).adj

theorem Plain.lists_print (output : OStream) :
    Lists V graph.Edge (written output (graph.printStructure output)) :=
  ⟨fun u => (graph.vertex u).adj, plain.readStructure_print output,
    fun u within => ⟨plain.nodup u within, fun _ => Iff.rfl⟩⟩

/-! ## The table -/

/-- The cells when so many edges have been entered. -/
def cellsOf (V : Nat) (entered : List (Nat × Nat)) : List (List String) :=
  (List.range V).map fun u => (List.range V).map fun v =>
    if (u, v) ∈ entered then present else absent

omit plain in
theorem cellsOf_enter {entered : List (Nat × Nat)} {u v : Nat} :
    (cellsOf V entered).modify u (fun row => row.set v present) =
      cellsOf V (entered ++ [(u, v)]) := by
  apply List.ext_getElem
  · simp [cellsOf]
  · intro x left right
    rw [List.getElem_modify]
    by_cases sameRow : u = x
    · subst sameRow
      rw [if_pos rfl]
      apply List.ext_getElem
      · simp [cellsOf]
      · intro y leftCell rightCell
        by_cases sameColumn : v = y <;> simp [cellsOf, sameColumn, Ne.symm]
    · simp [cellsOf, sameRow, Ne.symm]

theorem Plain.matrixRows_eq :
    graph.matrixRows =
      (List.range V).map fun u => (List.range V).map fun v => graph.cell u v := by
  have enter : ∀ edges entered : List (Nat × Nat), (∀ edge ∈ edges, edge.2 < V) →
      edges.foldl (fun rows edge => rows.modify edge.1 fun row =>
        row.set (graph.vertex edge.2).index present) (cellsOf V entered) =
        cellsOf V (entered ++ edges) := by
    intro edges
    induction edges with
    | nil => simp
    | cons edge rest induction =>
        intro entered within
        rw [List.forall_mem_cons] at within
        rw [List.foldl_cons, plain.index edge.2 within.1, cellsOf_enter, induction _ within.2,
          List.append_assoc]
        rfl
  have empty : List.replicate graph.V (List.replicate graph.V absent) = cellsOf V [] := by
    have count : graph.V = V := plain.numVertices
    simp [cellsOf, count]
  have whole := enter graph.edges [] fun edge member => (plain.edges_within edge member).2
  rw [List.nil_append, ← empty] at whole
  calc graph.matrixRows
      = graph.edges.foldl (fun rows edge => rows.modify edge.1 fun row =>
          row.set (graph.vertex edge.2).index present)
          (List.replicate graph.V (List.replicate graph.V absent)) :=
        foldl_edges graph (fun (rows : List (List String)) edge => rows.modify edge.1 fun row =>
          row.set (graph.vertex edge.2).index present) _
    _ = _ := by
        rw [whole]
        simp only [cellsOf, cell, plain.mem_edges]

theorem Plain.toList_printMatrix (output : OStream) :
    (written output (graph.printMatrix output)).toList =
      (heading V :: border V :: (List.range V).map (graph.row V)).flatMap (· ++ ['\n']) := by
  have count : graph.numVertices = V := plain.numVertices
  have padded {v : Nat} (member : v ∈ List.range V) :
      (setw 3 (graph.text v)).toList = (dotName v).leftpad 3 ' ' := by
    rw [setw, String.toList_ofList, plain.toList_text (List.mem_range.mp member)]
  have headings : (written output ((List.range V).flatMap fun j =>
      output.put [setw 3 (graph.text j), " "])).toList =
      (List.range V).flatMap fun v => (dotName v).leftpad 3 ' ' ++ [' '] := by
    rw [toList_written_puts]
    apply List.flatMap_congr
    intro v member
    simp [padded member]
  have rows : (written output ((List.range V).flatMap fun i =>
      output.put [setw 3 (graph.text i), " | "] ++
        (((List.range V).flatMap fun j =>
          output.put ["  ", (graph.matrixRows.getD i []).getD j "", " "]) ++
          output.put ["\n"]))).toList =
      ((List.range V).map (graph.row V)).flatMap (· ++ ['\n']) := by
    rw [toList_written_flatMap, List.flatMap_map]
    apply List.flatMap_congr
    intro u rowMember
    have cells : (written output ((List.range V).flatMap fun j =>
        output.put ["  ", (graph.matrixRows.getD u []).getD j "", " "])).toList =
        (List.range V).flatMap fun v => "  ".toList ++ (graph.cell u v).toList ++ [' '] := by
      rw [toList_written_puts]
      apply List.flatMap_congr
      intro v member
      rw [plain.matrixRows_eq, List.getD_map_range (List.mem_range.mp rowMember),
        List.getD_map_range (List.mem_range.mp member)]
      simp
    rw [written_append, written_append, String.toList_append, String.toList_append, cells,
      toList_written_put, toList_written_put]
    simp [row, padded rowMember]
  have rules : (written output ((List.range V).flatMap fun _ => output.put ["----"])).toList =
      (List.range V).flatMap fun _ => "----".toList := by
    rw [toList_written_puts]
    simp
  simp only [printMatrix, count, written_append, String.toList_append, headings, rows, rules,
    toList_written_put]
  simp [heading, border]

omit plain in
theorem not_mem_heading {c : Char} (symbol : c.isDigit = false) (other : c ≠ ' ') (V : Nat) :
    c ∉ heading V := by
  have names (v : Nat) := not_mem_dotName symbol v
  simp [heading, List.leftpad, names, other]

omit plain in
theorem not_mem_row {c : Char} (symbol : c.isDigit = false)
    (other : c ∉ " |*".toList) (u : Nat) : c ∉ graph.row V u := by
  have names (v : Nat) := not_mem_dotName symbol v
  have cells (v : Nat) : c ∉ (graph.cell u v).toList := by
    unfold cell
    split <;> simp_all [present, absent]
  simp_all [row, List.leftpad]

omit plain in
theorem words_heading (V : Nat) :
    wordsFrom ' ' [] (heading V) = (List.range V).map dotName := by
  have names (vertices : List Nat) : wordsFrom ' ' []
      (vertices.flatMap fun v => (dotName v).leftpad 3 ' ' ++ [' ']) = vertices.map dotName := by
    induction vertices with
    | nil => rfl
    | cons v rest induction =>
        rw [List.flatMap_cons, List.leftpad, List.append_assoc, List.append_assoc,
          wordsFrom_separators, List.singleton_append,
          wordsFrom_word ' ' (dotName_ne_nil v) (not_mem_dotName rfl v), induction]
        rfl
  exact (wordsFrom_separators ' ' 6 _).trans (names (List.range V))

omit plain in
theorem markedCells_row (u : Nat) :
    markedCells V (graph.row V u) = (List.range V).map fun v => decide (graph.Edge u v) := by
  have margin : ∀ c ∈ (dotName u).leftpad 3 ' ' ++ [' '], decide (c ≠ '|') = true := by
    intro c member
    have bar := not_mem_dotName (c := '|') rfl u
    apply decide_eq_true
    rintro rfl
    simp [List.leftpad, bar] at member
  have cells : ((graph.row V u).dropWhile (· ≠ '|')).drop 2 = (List.range V).flatMap fun v =>
      "  ".toList ++ (graph.cell u v).toList ++ [' '] := by
    have split : graph.row V u = ((dotName u).leftpad 3 ' ' ++ [' ']) ++ ('|' :: ' ' ::
        (List.range V).flatMap fun v => "  ".toList ++ (graph.cell u v).toList ++ [' ']) := by
      simp [row]
    rw [split, List.dropWhile_append_of_pos margin]
    rfl
  have wide : ∀ v < V, ("  ".toList ++ (graph.cell u v).toList ++ [' ']).length = 4 := by
    intro v _
    unfold cell
    split <;> rfl
  rw [markedCells, cells]
  apply List.map_congr_left
  intro v member
  rw [getD_columns wide (List.mem_range.mp member) (show 2 < 4 by omega)]
  unfold cell
  split <;> rename_i edge <;> simp [edge, present, absent]

theorem Plain.textLines_printMatrix (output : OStream) :
    textLines (written output (graph.printMatrix output)) =
      heading V :: border V :: (List.range V).map (graph.row V) := by
  have single : ∀ line ∈ heading V :: border V :: (List.range V).map (graph.row V),
      '\n' ∉ line := by
    rw [List.forall_mem_cons, List.forall_mem_cons, List.forall_mem_map]
    refine ⟨not_mem_heading rfl (by decide) V, by simp [border], ?_⟩
    exact fun u _ => not_mem_row rfl (by decide) u
  rw [textLines, plain.toList_printMatrix, linesFrom_flatMap '\n' single]

theorem Plain.readMatrix_print (output : OStream) :
    readMatrix (written output (graph.printMatrix output)) =
      (List.range V).map fun u => (List.range V).map fun v => decide (graph.Edge u v) := by
  rw [readMatrix, plain.textLines_printMatrix]
  dsimp only
  rw [words_heading, List.length_map, List.length_range, List.map_map]
  exact List.map_congr_left fun u _ => markedCells_row u

theorem Plain.tabulates_print (output : OStream) :
    Tabulates V graph.Edge (written output (graph.printMatrix output)) :=
  ⟨fun u v => decide (graph.Edge u v), plain.readMatrix_print output,
    fun _ _ => decide_eq_true_iff⟩

omit plain in
theorem length_leftpad_dotName {v : Nat} (small : v < 1000) :
    ((dotName v).leftpad 3 ' ').length = 3 := by
  rw [List.length_leftpad]
  exact Nat.max_eq_left (Nat.toDigits_length 10 v 3 (by omega) small)

omit plain in
theorem length_row (u : Nat) :
    (graph.row V u).length = ((dotName u).leftpad 3 ' ').length + 3 + 4 * V := by
  have cells : ((List.range V).flatMap fun v =>
      "  ".toList ++ (graph.cell u v).toList ++ [' ']).length = 4 * V := by
    apply length_columns
    intro v _
    unfold cell
    split <;> rfl
  rw [row, List.length_append, List.length_append, cells, Nat.add_assoc]
  rfl

/-- The lines of the table end at one column as long as no name has four digits. -/
theorem Plain.printMatrix_straight_iff (output : OStream) :
    (∃ width, ∀ line ∈ textLines (written output (graph.printMatrix output)),
      line.length = width) ↔ V ≤ 1000 := by
  have bordered : (border V).length = 4 * V + 6 := by
    have rules : ((List.range V).flatMap fun _ => "----".toList).length = 4 * V :=
      length_columns fun _ _ => rfl
    rw [border, List.length_append, List.length_append, rules, Nat.add_comm _ (4 * V)]
    rfl
  rw [plain.textLines_printMatrix]
  constructor
  · rintro ⟨width, straight⟩
    rw [List.forall_mem_cons, List.forall_mem_cons, List.forall_mem_map, bordered] at straight
    by_contra many
    have long := straight.2.2 1000 (List.mem_range.mpr (by omega))
    have digits : ((dotName 1000).leftpad 3 ' ').length = 4 := by decide
    rw [length_row, digits] at long
    omega
  · intro few
    refine ⟨4 * V + 6, ?_⟩
    rw [List.forall_mem_cons, List.forall_mem_cons, List.forall_mem_map]
    refine ⟨?_, bordered, ?_⟩
    · have wide : ∀ v < V, ((dotName v).leftpad 3 ' ' ++ [' ']).length = 4 := by
        intro v within
        rw [List.length_append, length_leftpad_dotName (by omega), List.length_singleton]
      rw [heading, List.length_append, length_columns wide, Nat.add_comm]
      rfl
    · intro u member
      rw [length_row, length_leftpad_dotName (by have := List.mem_range.mp member; omega)]
      omega

end Text

end Graph

end Pmud.Graphs
