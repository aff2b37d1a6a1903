import Pmud.Life.ReadFile

/-! # Board files

Which text files `read_file` takes for a board.
-/

namespace Pmud.Life

open Foundation

variable {settings : Settings}

def terminatedLines (content : ByteString) : List ByteString := linesFrom newline [] content

/-- What stands behind the last newline. -/
def lastLine (content : ByteString) : ByteString := tailFrom newline [] content

/-- The lines of a file, the last one with or without its newline. -/
def fileLines (content : ByteString) : List ByteString :=
  terminatedLines content ++ if lastLine content = [] then [] else [lastLine content]

/-- Lines shorter than 999 characters, without NUL. -/
def IsText (content : ByteString) : Prop :=
  (∀ line ∈ fileLines content, line.length < 999) ∧ 0 ∉ content

instance (content : ByteString) : Decidable (IsText content) :=
  inferInstanceAs (Decidable (_ ∧ _))

/-- As many lines as the board has rows, as long as it has columns. -/
def IsBoardFile (settings : Settings) (content : ByteString) : Prop :=
  ((fileLines content).length : Int) = settings.numRows ∧
    ∀ line ∈ fileLines content, (line.length : Int) = settings.numCols

instance (settings : Settings) (content : ByteString) :
    Decidable (IsBoardFile settings content) :=
  inferInstanceAs (Decidable (_ ∧ _))

/-- The board that is written down in some lines. -/
def boardOf (settings : Settings) (lines : List ByteString) : Board settings :=
  fun cell => (lines.getD cell.row.toNat []).getD cell.col.toNat 0

/-- The file is read exactly when it is a board file, and every other is rejected. -/
structure ParsesExactly (filename : String) (content : ByteString) (buf : Buffer)
    (board : Board settings) : Prop where
  returns : (∃ after, readFile filename (some content) buf board = .ok after) ↔
    IsBoardFile settings content
  cells : ∀ after, readFile filename (some content) buf board = .ok after →
    after = boardOf settings (fileLines content)
  rejects : ¬ IsBoardFile settings content →
    ∃ output, readFile filename (some content) buf board = .error (.exit output)

/-! ## Reads and lines -/

/-- Short lines are read one by one, each with its newline. -/
theorem reads_of_short {limit : Nat} {begun content : ByteString}
    (short : ∀ line ∈ linesFrom newline begun content ++ [tailFrom newline begun content],
      line.length < limit) :
    reads limit begun content = (linesFrom newline begun content).map (· ++ [newline]) := by
  induction content generalizing begun with
  | nil => rfl
  | cons c rest induction =>
      by_cases ends : c = newline
      · simp only [linesFrom, tailFrom, ends, if_true, List.cons_append, List.forall_mem_cons]
          at short
        simp [reads, linesFrom, ends, induction short.2]
      · simp only [linesFrom, tailFrom, ends, if_false] at short
        rcases exists_line_of_begun newline (begun ++ [c]) rest with ⟨line, member, longer⟩
        have bound := longer.length_le
        have below := short line member
        rw [List.length_append, List.length_singleton] at bound
        rw [reads, if_neg (by simp only [ends, false_or]; omega), induction short]
        simp [linesFrom, ends]

section Text

variable {content : ByteString} (isText : IsText content)
include isText

theorem IsText.lines_short :
    ∀ line ∈ terminatedLines content ++ [lastLine content], line.length < bufLen - 1 := by
  intro line member
  rcases List.mem_append.mp member with terminated | last
  · exact isText.1 line (List.mem_append_left _ terminated)
  · rw [List.mem_singleton.mp last]
    by_cases none : lastLine content = []
    · rw [none]
      decide
    · exact isText.1 _ (List.mem_append_right _ (by simp [none]))

theorem IsText.reads_eq :
    reads (bufLen - 1) [] content = (terminatedLines content).map (· ++ [newline]) :=
  reads_of_short isText.lines_short

theorem IsText.clean {line : ByteString} (member : line ∈ terminatedLines content) :
    0 ∉ line ∧ newline ∉ line := by
  have found := List.mem_append_left [tailFrom newline [] content] member
  constructor
  · intro zero
    rcases mem_of_mem_lines newline found zero with none | ⟨there, -⟩
    · cases none
    · exact isText.2 there
  · intro inside
    rcases mem_of_mem_lines newline found inside with none | ⟨-, other⟩
    · cases none
    · exact other rfl

end Text

/-- A line with its newline fits when it is not longer than the board is wide. -/
theorem fits_line_iff {line : ByteString} (clean : 0 ∉ line ∧ newline ∉ line) (n : Nat) :
    Fits n (line ++ [newline]) ↔ line.length ≤ n := by
  have noZero : 0 ∉ (line ++ [newline]).take (n + 1) := by
    intro zero
    rcases List.mem_append.mp (List.mem_of_mem_take zero) with inside | last
    · exact clean.1 inside
    · exact absurd (List.mem_singleton.mp last) (by decide)
  have place : (line ++ [newline])[n]? = some newline ↔ n = line.length := by
    constructor
    · intro found
      by_contra other
      rcases Nat.lt_or_gt_of_ne other with before | behind
      · rw [List.getElem?_append_left before] at found
        exact clean.2 (List.mem_of_getElem? found)
      · have beyond : (line ++ [newline]).length ≤ n := by
          rw [List.length_append, List.length_singleton]
          exact behind
        rw [List.getElem?_eq_none beyond] at found
        cases found
    · rintro rfl
      simp
  rw [Fits, place, or_iff_left noZero, List.length_append, List.length_singleton]
  omega

/-- An exact line stands at the beginning of the buffer. -/
theorem getD_stripped_line (buf : Buffer) {handle : FileHandle} {line : ByteString}
    (read : handle.read = line ++ [newline]) {j : Nat} (within : j < line.length) :
    ((buf.fgets handle).stripped line.length).bytes.getD j 0 = line.getD j 0 := by
  have bound : line.length < handle.read.length := by simp [read]
  have last : (buf.fgets handle).bytes.getD line.length 0 = newline := by
    rw [buf.fgets_getD_of_lt bound, read]
    simp
  have other : line.length ≠ j := by omega
  rw [Buffer.stripped, if_pos last]
  change ((buf.fgets handle).bytes.set line.length 0).getD j 0 = _
  rw [List.getD_eq_getElem?_getD, List.getElem?_set_ne other, ← List.getD_eq_getElem?_getD,
    buf.fgets_getD_of_lt (Nat.lt_trans within bound), read, List.getD_append _ _ _ _ within]

section Lines

variable {filename : String} {board : Board settings} {buf : Buffer} {handle : FileHandle}
  {row : Int} (columns : 0 ≤ settings.numCols ∧ settings.numCols < bufLen)
include columns

/-- A line of the right length fills a row. -/
theorem storeLine_of_line {line : ByteString} (more : handle.next.eof = false)
    (read : handle.read = line ++ [newline]) (clean : 0 ∉ line ∧ newline ∉ line)
    (width : (line.length : Int) = settings.numCols)
    (rowWithin : 0 ≤ row ∧ row < settings.numRows) :
    storeLine filename board (buf.fgets handle) row =
      .ok (board.withRow row line line.length, (buf.fgets handle).stripped line.length) := by
  have columnCount : settings.numCols.toNat = line.length := by omega
  have fits : Fits settings.numCols.toNat handle.read := by
    rw [read, fits_line_iff clean]
    omega
  have same : board.withRow row ((buf.fgets handle).stripped line.length).bytes line.length =
      board.withRow row line line.length := by
    funext cell
    have bounds := cell.bounds
    rw [Board.withRow, Board.withRow, getD_stripped_line buf read (by omega)]
  rw [storeLine_of_fits (FileHandle.read_ne_nil more) columns fits,
    writeRow_of_within board rowWithin _ (by omega), columnCount, same]
  rfl

/-- Lines of the right length fill the rows of the board one after the other. -/
theorem readLoop_of_lines {lines : List ByteString}
    (found : handle.reads = lines.map (· ++ [newline]))
    (exact : ∀ line ∈ lines, (0 ∉ line ∧ newline ∉ line) ∧ (line.length : Int) = settings.numCols)
    (rowWithin : 0 ≤ row) (room : row + lines.length ≤ settings.numRows) :
    ∃ final, readLoop filename (.before board buf handle row) = .ok final ∧
      final.row = row + lines.length ∧
      ∀ cell, final.board cell =
        if row ≤ cell.row ∧ cell.row < row + lines.length then
          (lines.getD (cell.row - row).toNat []).getD cell.col.toNat 0
        else board cell := by
  induction lines generalizing handle board buf row with
  | nil =>
      refine ⟨_, readLoop_of_end (FileHandle.reads_eq_nil found), by simp [ReadState.before], ?_⟩
      intro cell
      rw [if_neg (by simp)]
      rfl
  | cons line rest induction =>
      rw [List.map_cons] at found
      rcases FileHandle.reads_eq_cons found with ⟨more, read, later⟩
      rw [List.forall_mem_cons] at exact
      rcases exact with ⟨⟨clean, width⟩, others⟩
      rw [List.length_cons] at room
      have nextWithin : 0 ≤ row + 1 := by omega
      have nextRoom : row + 1 + rest.length ≤ settings.numRows := by omega
      rcases @induction (board.withRow row line line.length)
          ((buf.fgets handle).stripped line.length) handle.next (row + 1) later others nextWithin
          nextRoom with ⟨final, ends, count, cells⟩
      have stored : storeLine filename board (buf.fgets handle) row =
          .ok (board.withRow row line line.length, (buf.fgets handle).stripped line.length) :=
        storeLine_of_line columns more read clean width ⟨rowWithin, by omega⟩
      refine ⟨final, (readLoop_of_stored more stored).trans ends, ?_, ?_⟩
      · rw [count, List.length_cons]
        omega
      · intro cell
        have bounds := cell.bounds
        rw [cells cell, List.length_cons]
        by_cases here : cell.row = row
        · have inRow : cell.col < (line.length : Int) := by omega
          have zero : (cell.row - row).toNat = 0 := by omega
          rw [if_neg (by omega), if_pos (by omega), Board.withRow, if_pos ⟨here, inRow⟩, zero,
            List.getD_cons_zero]
        · by_cases below : row + 1 ≤ cell.row ∧ cell.row < row + 1 + rest.length
          · have next : (cell.row - row).toNat = (cell.row - (row + 1)).toNat + 1 := by omega
            rw [if_pos below, if_pos (by omega), next, List.getD_cons_succ]
          · rw [if_neg below, if_neg (by omega), Board.withRow, if_neg (by simp [here])]

end Lines

/-! ## Which files are read right -/

section Parse

variable {filename : String} {content : ByteString} {buf : Buffer} {board : Board settings}

theorem parsesExactly_of_exit (notBoard : ¬ IsBoardFile settings content)
    (exits : ∃ output, readFile filename (some content) buf board = .error (.exit output)) :
    ParsesExactly filename content buf board where
  returns := by
    refine iff_of_false (fun returns => ?_) notBoard
    rcases returns with ⟨after, ok⟩
    exact ne_ok_of_exits exits after ok
  cells := fun after ok => absurd ok (ne_ok_of_exits exits after)
  rejects := fun _ => exits

theorem isBoardFile_of_full (full : ((terminatedLines content).length : Int) = settings.numRows) :
    IsBoardFile settings content ↔ lastLine content = [] ∧
      ∀ line ∈ terminatedLines content, (line.length : Int) = settings.numCols := by
  unfold IsBoardFile fileLines
  by_cases none : lastLine content = []
  · simp [none, full]
  · simp only [none, if_false, List.length_append, List.length_singleton, false_and, iff_false,
      not_and]
    intro count
    omega

/-- A board file that is written to its end is read, and read right. -/
theorem parsesExactly_of_full (isText : IsText content)
    (columns : 0 ≤ settings.numCols ∧ settings.numCols < bufLen)
    (full : ((terminatedLines content).length : Int) = settings.numRows)
    (isBoard : IsBoardFile settings content) : ParsesExactly filename content buf board := by
  rcases (isBoardFile_of_full full).mp isBoard with ⟨none, exact⟩
  have found : FileHandle.reads { rest := content, eof := false } =
      (terminatedLines content).map (· ++ [newline]) := isText.reads_eq
  have ends : ∃ final, readLoop filename
      (.before board buf { rest := content, eof := false } 0) = .ok final ∧
      final.row = 0 + (terminatedLines content).length ∧
      ∀ cell, final.board cell =
        if 0 ≤ cell.row ∧ cell.row < 0 + (terminatedLines content).length then
          ((terminatedLines content).getD (cell.row - 0).toNat []).getD cell.col.toNat 0
        else board cell :=
    readLoop_of_lines columns found (fun line member => ⟨isText.clean member, exact line member⟩)
      (Int.le_refl 0) (by omega)
  rcases ends with ⟨final, ends, count, cells⟩
  have returned : readFile filename (some content) buf board = .ok final.board := by
    rw [readFile_of_loop_ok ends, if_neg]
    rw [not_not, count]
    omega
  have same : final.board = boardOf settings (fileLines content) := by
    funext cell
    have bounds := cell.bounds
    rw [cells cell, if_pos (by omega), boardOf, fileLines, none, if_pos rfl, List.append_nil,
      Int.sub_zero]
  exact {
    returns := iff_of_true ⟨_, returned⟩ isBoard
    cells := by
      intro after ok
      rw [returned] at ok
      cases ok
      exact same
    rejects := fun notBoard => absurd isBoard notBoard }

end Parse

/-- The only board files without a newline at the end. -/
def EndsOpen (settings : Settings) (content : ByteString) : Prop :=
  (terminatedLines content).length + 1 = settings.numRows ∧ lastLine content ≠ [] ∧
    ∀ line ∈ fileLines content, (line.length : Int) = settings.numCols

/-- A line that is too wide stops the loop. Otherwise the newlines are counted, and
what stands behind the last of them or is missing in a line is not noticed. -/
def ReadsRight (settings : Settings) (content : ByteString) : Prop :=
  (∃ line ∈ (terminatedLines content).take (settings.numRows.toNat + 1),
      settings.numCols < line.length) ∨
    ((terminatedLines content).length < settings.numRows ∧ ¬ EndsOpen settings content) ∨
    ((terminatedLines content).length = settings.numRows ∧ lastLine content = [] ∧
      ∀ line ∈ terminatedLines content, (line.length : Int) = settings.numCols)

theorem endsOpen_iff {content : ByteString}
    (fewer : ((terminatedLines content).length : Int) < settings.numRows) :
    EndsOpen settings content ↔ IsBoardFile settings content := by
  unfold EndsOpen IsBoardFile
  rw [← and_assoc]
  apply and_congr_left
  intro _
  by_cases none : lastLine content = []
  · simp only [fileLines, none, if_true, List.append_nil, ne_eq, not_true, and_false, false_iff]
    omega
  · simp [fileLines, none]

theorem not_isBoardFile_of_more {content : ByteString}
    (more : settings.numRows < ((terminatedLines content).length : Int)) :
    ¬ IsBoardFile settings content := by
  intro isBoard
  have count := isBoard.1
  rw [fileLines, List.length_append] at count
  omega

theorem not_isBoardFile_of_wide {content : ByteString} {n : Nat}
    (wide : ¬ ∀ line ∈ (terminatedLines content).take n,
      (line.length : Int) ≤ settings.numCols) :
    ¬ IsBoardFile settings content := by
  intro isBoard
  apply wide
  intro line member
  have inFile : line ∈ fileLines content :=
    List.mem_append_left _ (List.mem_of_mem_take member)
  exact Int.le_of_eq (isBoard.2 line inFile)

section Outcomes

variable {content : ByteString} (filename : String) (buf : Buffer) (board : Board settings)
  (isText : IsText content) (columns : 0 < settings.numCols ∧ settings.numCols < bufLen)
include isText columns

omit columns in
theorem IsText.length_reads :
    (reads (bufLen - 1) [] content).length = (terminatedLines content).length := by
  rw [isText.reads_eq, List.length_map]

/-- The reads fit when the lines do. -/
theorem IsText.fits_reads_iff {n : Nat} :
    (∀ read ∈ (reads (bufLen - 1) [] content).take n, Fits settings.numCols.toNat read) ↔
      ∀ line ∈ (terminatedLines content).take n, (line.length : Int) ≤ settings.numCols := by
  rw [isText.reads_eq, ← List.map_take, List.forall_mem_map]
  apply forall₂_congr
  intro line member
  rw [fits_line_iff (isText.clean (List.mem_of_mem_take member))]
  omega

theorem exits_of_wide (rows : 0 ≤ settings.numRows)
    (wide : ¬ ∀ line ∈ (terminatedLines content).take (settings.numRows.toNat + 1),
      (line.length : Int) ≤ settings.numCols) :
    ∃ output, readFile filename (some content) buf board = .error (.exit output) := by
  rw [← isText.fits_reads_iff columns] at wide
  rcases storedReads_split settings content with ⟨⟨rest, split, first⟩, fit⟩
  have inside : 0 ≤ settings.numCols ∧ settings.numCols < bufLen :=
    ⟨Int.le_of_lt columns.1, columns.2⟩
  have early : (storedReads settings content).length ≤ settings.numRows.toNat := by
    by_contra late
    refine wide fun read member => fit read ?_
    rw [split, List.take_append_of_le_length (by omega)] at member
    exact List.mem_of_mem_take member
  cases rest with
  | nil =>
      rw [List.append_nil] at split
      exact absurd (fun read member => fit read (split ▸ List.mem_of_mem_take member)) wide
  | cons read others =>
      exact readFile_of_wide filename buf board inside split fit (first read rfl)
        (.inr (by omega))

theorem outOfBounds_of_more (rows : 0 ≤ settings.numRows)
    (narrow : ∀ line ∈ (terminatedLines content).take (settings.numRows.toNat + 1),
      (line.length : Int) ≤ settings.numCols)
    (more : settings.numRows < (terminatedLines content).length) :
    readFile filename (some content) buf board = .error .outOfBounds := by
  rw [← isText.fits_reads_iff columns] at narrow
  have within : settings.numRows.toNat < (reads (bufLen - 1) [] content).length := by
    rw [isText.length_reads]
    omega
  rw [List.take_succ_eq_append_getElem within, List.forall_mem_append] at narrow
  have split := List.take_append_drop settings.numRows.toNat (reads (bufLen - 1) [] content)
  rw [List.drop_eq_getElem_cons within] at split
  refine readFile_of_crowded filename buf board columns split.symm narrow.1
    (narrow.2 _ (List.mem_singleton_self _)) ?_
  rw [List.length_take_of_le (Nat.le_of_lt within)]
  exact Int.toNat_of_nonneg rows

/-- Without a wide line, the number of newlines decides. -/
theorem outcome_of_narrow (rows : 0 ≤ settings.numRows)
    (narrow : ∀ line ∈ (terminatedLines content).take (settings.numRows.toNat + 1),
      (line.length : Int) ≤ settings.numCols)
    (fewer : (terminatedLines content).length ≤ settings.numRows) :
    (((terminatedLines content).length : Int) = settings.numRows ∧
        ∃ after, readFile filename (some content) buf board = .ok after) ∨
      (((terminatedLines content).length : Int) ≠ settings.numRows ∧
        ∃ output, readFile filename (some content) buf board = .error (.exit output)) := by
  rw [← isText.fits_reads_iff columns, List.take_of_length_le] at narrow
  · rw [← isText.length_reads] at fewer ⊢
    exact readFile_of_all filename buf board ⟨Int.le_of_lt columns.1, columns.2⟩ narrow
      (.inr fewer)
  · rw [isText.length_reads]
    omega

section Narrow

variable (rows : 0 ≤ settings.numRows)
  (narrow : ∀ line ∈ (terminatedLines content).take (settings.numRows.toNat + 1),
    (line.length : Int) ≤ settings.numCols)
include rows narrow

/-- Too few newlines lead to a rejection, which is wrong for an open end. -/
theorem parsesExactly_of_fewer (fewer : (terminatedLines content).length < settings.numRows) :
    ParsesExactly filename content buf board ↔ ¬ EndsOpen settings content := by
  rcases outcome_of_narrow filename buf board isText columns rows narrow (by omega) with
    ⟨full, -⟩ | ⟨-, exits⟩
  · omega
  · rw [endsOpen_iff fewer]
    constructor
    · intro right isBoard
      rcases right.returns.mpr isBoard with ⟨after, ok⟩
      exact ne_ok_of_exits exits after ok
    · exact fun notBoard => parsesExactly_of_exit notBoard exits

/-- With as many newlines as rows a file is taken for a board. -/
theorem parsesExactly_iff_isBoardFile
    (full : ((terminatedLines content).length : Int) = settings.numRows) :
    ParsesExactly filename content buf board ↔ IsBoardFile settings content := by
  rcases outcome_of_narrow filename buf board isText columns rows narrow (by omega) with
    ⟨-, returns⟩ | ⟨other, -⟩
  · constructor
    · exact fun right => right.returns.mp returns
    · exact parsesExactly_of_full isText ⟨Int.le_of_lt columns.1, columns.2⟩ full
  · exact absurd full other

/-- A line that there is no row for is not rejected. -/
theorem not_parsesExactly_of_more
    (more : settings.numRows < (terminatedLines content).length) :
    ¬ ParsesExactly filename content buf board := by
  intro right
  have exits := right.rejects (not_isBoardFile_of_more more)
  exact ne_outOfBounds_of_exits exits
    (outOfBounds_of_more filename buf board isText columns rows narrow more)

end Narrow

end Outcomes

/-- Which files are read right. -/
theorem parsesExactly_iff (filename : String) {content : ByteString} (buf : Buffer)
    (board : Board settings) (isText : IsText content)
    (rows : 1 ≤ settings.numRows ∧ settings.numRows ≤ 998)
    (columns : 1 ≤ settings.numCols ∧ settings.numCols ≤ 998) :
    ParsesExactly filename content buf board ↔ ReadsRight settings content := by
  have inside : 0 < settings.numCols ∧ settings.numCols < bufLen :=
    ⟨columns.1, Int.lt_of_le_of_lt columns.2 (by decide)⟩
  have nonneg : 0 ≤ settings.numRows := Int.le_trans (by decide) rows.1
  by_cases narrow : ∀ line ∈ (terminatedLines content).take (settings.numRows.toNat + 1),
      (line.length : Int) ≤ settings.numCols
  · have noWide : ¬ ∃ line ∈ (terminatedLines content).take (settings.numRows.toNat + 1),
        settings.numCols < line.length := by
      push Not
      exact narrow
    rw [ReadsRight, or_iff_right noWide]
    rcases lt_trichotomy ((terminatedLines content).length : Int) settings.numRows with
      fewer | full | more
    · rw [parsesExactly_of_fewer filename buf board isText inside nonneg narrow fewer,
        or_iff_left (fun right => absurd right.1 (Int.ne_of_lt fewer)), and_iff_right fewer]
    · rw [parsesExactly_iff_isBoardFile filename buf board isText inside nonneg narrow full,
        or_iff_right (fun left => absurd full (Int.ne_of_lt left.1)), and_iff_right full,
        ← isBoardFile_of_full full]
    · refine iff_of_false ?_ (by omega)
      exact not_parsesExactly_of_more filename buf board isText inside nonneg narrow more
  · refine iff_of_true (parsesExactly_of_exit (not_isBoardFile_of_wide narrow) ?_) (.inl ?_)
    · exact exits_of_wide filename buf board isText inside nonneg narrow
    · push Not at narrow
      exact narrow

theorem parsesExactly_row :
    ParsesExactly "board.txt" (text "X.\n") emptyBuffer (fun _ : Cell narrowSettings => dead) ↔
      ReadsRight narrowSettings (text "X.\n") :=
  parsesExactly_iff "board.txt" emptyBuffer _ (by decide) (by decide) (by decide)

/-- A board without a newline behind its last row is rejected. -/
theorem not_parsesExactly_of_open :
    ¬ ParsesExactly "board.txt" (text "X.") emptyBuffer
      (fun _ : Cell narrowSettings => dead) := by
  intro right
  rcases right.returns.mpr (by decide) with ⟨after, ok⟩
  have narrow : ∀ read ∈ reads (bufLen - 1) [] (text "X."),
      Fits narrowSettings.numCols.toNat read := by decide
  rcases readFile_of_all "board.txt" emptyBuffer (fun _ : Cell narrowSettings => dead)
      (by decide) narrow (by decide) with
    ⟨full, -⟩ | ⟨-, output, exits⟩
  · exact absurd full (by decide)
  · exact ne_ok_of_exits ⟨output, exits⟩ after ok

end Pmud.Life
