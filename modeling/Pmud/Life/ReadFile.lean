import Mathlib.Data.List.GetD
import Pmud.Common.ByteString
import Pmud.Foundation.Lines
import Pmud.Life.Board

/-! # Reading a board

`read_file` of `life/life.c`. What `malloc` has left in the line buffer and in
the board is arbitrary.
-/

namespace Pmud.Life

open Foundation

variable {settings : Settings}

def newline : UInt8 := '\n'.toUInt8

def bufLen : Nat := 1000

/-- The bytes that `fgets` takes: so many at most, and a newline is the last. -/
def takeLine : Nat → ByteString → ByteString
  | 0, _ => []
  | _ + 1, [] => []
  | limit + 1, c :: rest => if c = newline then [c] else c :: takeLine limit rest

theorem length_takeLine_le (limit : Nat) (bytes : ByteString) :
    (takeLine limit bytes).length ≤ limit := by
  induction bytes generalizing limit with
  | nil => cases limit with
    | zero => simp [takeLine]
    | succ limit => simp [takeLine]
  | cons c rest induction => cases limit with
    | zero => simp [takeLine]
    | succ limit =>
        rw [takeLine]
        split
        · simp
        · simpa using induction limit

theorem takeLine_isPrefix (limit : Nat) (bytes : ByteString) :
    takeLine limit bytes <+: bytes := by
  induction bytes generalizing limit with
  | nil => cases limit with
    | zero => exact List.nil_prefix
    | succ limit => exact List.nil_prefix
  | cons c rest induction => cases limit with
    | zero => exact List.nil_prefix
    | succ limit =>
        rw [takeLine]
        split
        · exact ⟨rest, rfl⟩
        · exact (List.prefix_cons_inj c).mpr (induction limit)

/-- The line buffer. -/
structure Buffer where
  bytes : ByteString
  length : bytes.length = bufLen

structure FileHandle where
  rest : ByteString
  eof : Bool

namespace FileHandle

def read (handle : FileHandle) : ByteString := takeLine (bufLen - 1) handle.rest

/-- The end of the file is noticed by a read that comes to it before a newline. -/
def next (handle : FileHandle) : FileHandle where
  rest := handle.rest.drop handle.read.length
  eof := handle.read.length < bufLen - 1 ∧ newline ∉ handle.read

/-- What there is left to read, the end of the file included. -/
def remaining (handle : FileHandle) : Nat :=
  handle.rest.length + if handle.eof then 0 else 1

theorem length_read_lt (handle : FileHandle) : handle.read.length < bufLen :=
  Nat.lt_of_le_of_lt (length_takeLine_le (bufLen - 1) handle.rest) (by decide)

theorem remaining_next {handle : FileHandle} (more : handle.eof = false) :
    handle.next.remaining < handle.remaining := by
  have taken := (takeLine_isPrefix (bufLen - 1) handle.rest).length_le
  rw [remaining, remaining, more, next, List.length_drop]
  simp only [decide_eq_true_eq, Bool.false_eq_true, if_false]
  split
  · omega
  · next goes =>
    have some : 0 < handle.read.length := by
      rw [not_and_or, not_not] at goes
      rcases goes with full | terminated
      · have limit : bufLen - 1 = 999 := rfl
        omega
      · exact List.length_pos_of_mem terminated
    have bound : handle.read.length ≤ handle.rest.length := taken
    omega

end FileHandle

namespace Buffer

/-- A read and the NUL behind it overwrite the beginning of the buffer. -/
def fgets (buf : Buffer) (handle : FileHandle) : Buffer :=
  if handle.read = [] then buf
  else
    { bytes := handle.read ++ 0 :: buf.bytes.drop (handle.read.length + 1)
      length := by
        have fits := handle.length_read_lt
        simp only [List.length_append, List.length_cons, List.length_drop, buf.length]
        omega }

/-- `buf[i]` -/
def charAt (buf : Buffer) (i : Int) : Outcome UInt8 :=
  if 0 ≤ i ∧ i < bufLen then .ok (buf.bytes.getD i.toNat 0) else .error .outOfBounds

/-- `buf[i] = '\0'` -/
def terminate (buf : Buffer) (i : Nat) : Buffer where
  bytes := buf.bytes.set i 0
  length := by rw [List.length_set, buf.length]

def strlen (buf : Buffer) : Nat := (buf.bytes.takeWhile fun c => c ≠ 0).length

end Buffer

/-- The loop over the columns of one row. -/
def writeRow (board : Board settings) (row : Int) (buf : Buffer) : Outcome (Board settings) :=
  (List.range settings.numCols.toNat).foldlM
    (fun board (j : Nat) => do board.write row j (← buf.charAt j)) board

def columnsMessage (filename : String) (strlen : Nat) (numCols : Int) : String :=
  s!"{filename} has {strlen} columns (max {numCols})\n"

def rowsMessage (filename : String) (row numRows : Int) : String :=
  s!"{filename} has {row} rows (must be {numRows})\n"

/-- The body of the loop up to the next `fgets`. -/
def storeLine (filename : String) (board : Board settings) (buf : Buffer) (row : Int) :
    Outcome (Board settings × Buffer) := do
  let last ← buf.charAt settings.numCols
  let line := if last = newline then buf.terminate settings.numCols.toNat else buf
  if line.strlen > settings.numCols.toNat then
    .error (.exit (columnsMessage filename line.strlen settings.numCols))
  else
    return (← writeRow board row line, line)

structure ReadState (settings : Settings) where
  board : Board settings
  buf : Buffer
  handle : FileHandle
  row : Int

def readLoop (filename : String) (state : ReadState settings) : Outcome (ReadState settings) :=
  if state.handle.eof = true then .ok state
  else
    match storeLine filename state.board state.buf state.row with
    | .error stop => .error stop
    | .ok (board, line) =>
        readLoop filename
          { board := board
            buf := line.fgets state.handle
            handle := state.handle.next
            row := state.row + 1 }
termination_by state.handle.remaining
decreasing_by
  apply FileHandle.remaining_next
  simpa using ‹¬ state.handle.eof = true›

/-- `none` is a file that cannot be opened. -/
def readFile (filename : String) (file : Option ByteString) (buf : Buffer)
    (board : Board settings) : Outcome (Board settings) :=
  match file with
  | none => .error (.exit "Error, bad file. Aborting.")
  | some content =>
      let handle : FileHandle := { rest := content, eof := false }
      match readLoop filename
          { board := board, buf := buf.fgets handle, handle := handle.next, row := 0 } with
      | .error stop => .error stop
      | .ok final =>
          if final.row ≠ settings.numRows then
            .error (.exit (rowsMessage filename final.row settings.numRows))
          else
            .ok final.board

/-! ## The reads of a file -/

/-- The reads that end in front of the end of the file. `begun` is the part of
the next one that has been read. -/
def reads (limit : Nat) : ByteString → ByteString → List ByteString
  | _, [] => []
  | begun, c :: rest =>
      if c = newline ∨ begun.length + 1 = limit then (begun ++ [c]) :: reads limit [] rest
      else reads limit (begun ++ [c]) rest

theorem reads_begun {limit : Nat} {begun : ByteString} (room : begun.length < limit)
    (content : ByteString) :
    let read := takeLine (limit - begun.length) content
    reads limit begun content =
      if read.length < limit - begun.length ∧ newline ∉ read then []
      else (begun ++ read) :: reads limit [] (content.drop read.length) := by
  induction content generalizing begun with
  | nil =>
      obtain ⟨space, left⟩ : ∃ space, limit - begun.length = space + 1 :=
        ⟨limit - begun.length - 1, by omega⟩
      simp [reads, left, takeLine]
  | cons c rest induction =>
      obtain ⟨space, left⟩ : ∃ space, limit - begun.length = space + 1 :=
        ⟨limit - begun.length - 1, by omega⟩
      rw [left, takeLine, reads]
      by_cases ends : c = newline
      · simp [ends]
      · simp only [ends, false_or, if_false]
        by_cases full : begun.length + 1 = limit
        · have none : space = 0 := by omega
          subst none
          simp [full, takeLine]
        · have longer : (begun ++ [c]).length = begun.length + 1 := by simp
          have less : limit - (begun ++ [c]).length = space := by omega
          have roomLeft : (begun ++ [c]).length < limit := by omega
          rw [if_neg full, induction roomLeft, less]
          simp [ends, eq_comm]

/-- The reads of a file from its first `fgets` on. -/
def FileHandle.reads (handle : FileHandle) : List ByteString :=
  Life.reads (bufLen - 1) [] handle.rest

theorem FileHandle.reads_eq (handle : FileHandle) :
    handle.reads = if handle.next.eof then [] else handle.read :: handle.next.reads := by
  have room : ([] : ByteString).length < bufLen - 1 := by decide
  have split := reads_begun room handle.rest
  simp only [List.length_nil, Nat.sub_zero, List.nil_append] at split
  rw [FileHandle.reads, split, next]
  simp only [decide_eq_true_eq]
  rfl

/-! ## A line in the buffer -/

/-- With a NUL among its first bytes, or not that many of them, a text is short. -/
theorem length_takeWhile_le_iff (bytes : ByteString) (n : Nat) :
    (bytes.takeWhile fun c => c ≠ 0).length ≤ n ↔ 0 ∈ bytes.take (n + 1) ∨ bytes.length ≤ n := by
  induction bytes generalizing n with
  | nil => simp
  | cons c rest induction =>
      by_cases zero : c = 0
      · simp [zero]
      · cases n with
        | zero => simp [zero, Ne.symm zero]
        | succ n =>
            simp only [ne_eq, zero, not_false_eq_true, decide_true, List.takeWhile_cons_of_pos,
              List.length_cons, Nat.add_le_add_iff_right, List.take_succ_cons, List.mem_cons,
              Ne.symm zero, false_or]
            exact induction n

/-- What gets past the test of the width: a short read, a newline in the right
place, or a NUL. -/
def Fits (n : Nat) (read : ByteString) : Prop :=
  read.length ≤ n ∨ read[n]? = some newline ∨ 0 ∈ read.take (n + 1)

instance (n : Nat) (read : ByteString) : Decidable (Fits n read) :=
  inferInstanceAs (Decidable (_ ∨ _ ∨ _))

/-- The line that the loop makes of the buffer. -/
def Buffer.stripped (buf : Buffer) (n : Nat) : Buffer :=
  if buf.bytes.getD n 0 = newline then buf.terminate n else buf

namespace Buffer

theorem stripped_def (buf : Buffer) (n : Nat) :
    (if buf.bytes.getD n 0 = newline then buf.terminate n else buf) = buf.stripped n :=
  rfl

theorem fgets_bytes (buf : Buffer) {handle : FileHandle} (some : handle.read ≠ []) :
    (buf.fgets handle).bytes = handle.read ++ 0 :: buf.bytes.drop (handle.read.length + 1) := by
  rw [fgets, if_neg some]

theorem strlen_le_iff (buf : Buffer) {n : Nat} (inside : n < bufLen) :
    buf.strlen ≤ n ↔ 0 ∈ buf.bytes.take (n + 1) := by
  rw [strlen, length_takeWhile_le_iff, buf.length]
  exact or_iff_left (Nat.not_le_of_lt inside)

theorem fgets_getD_of_lt (buf : Buffer) {n : Nat} {handle : FileHandle}
    (within : n < handle.read.length) :
    (buf.fgets handle).bytes.getD n 0 = handle.read.getD n 0 := by
  rw [fgets_bytes buf (List.ne_nil_of_length_pos (Nat.zero_lt_of_lt within)),
    List.getD_append _ _ _ _ within]

theorem strlen_terminate_le (buf : Buffer) {n : Nat} (inside : n < bufLen) :
    (buf.terminate n).strlen ≤ n := by
  rw [strlen_le_iff _ inside, terminate, List.mem_take_iff_getElem]
  have within : n < buf.bytes.length := by rwa [buf.length]
  exact ⟨n, by simpa using within, by simp⟩

/-- The width of a line is what its read makes it, whatever was in the buffer. -/
theorem strlen_stripped_le_iff (buf : Buffer) {n : Nat} (inside : n < bufLen)
    {handle : FileHandle} (some : handle.read ≠ []) :
    ((buf.fgets handle).stripped n).strlen ≤ n ↔ Fits n handle.read := by
  unfold stripped Fits
  by_cases short : handle.read.length ≤ n
  · have zero : 0 ∈ (buf.fgets handle).bytes.take (n + 1) := by
      rw [fgets_bytes buf some, List.take_append]
      obtain ⟨space, left⟩ : ∃ space, n + 1 - handle.read.length = space + 1 :=
        ⟨n - handle.read.length, by omega⟩
      simp [left]
    refine iff_of_true ?_ (.inl short)
    split
    · exact strlen_terminate_le _ inside
    · exact (strlen_le_iff _ inside).mpr zero
  · have within : n < handle.read.length := Nat.lt_of_not_le short
    have last : handle.read[n]? = Option.some newline ↔
        (buf.fgets handle).bytes.getD n 0 = newline := by
      rw [fgets_getD_of_lt buf within, List.getElem?_eq_getElem within,
        List.getD_eq_getElem _ _ within, Option.some.injEq]
    have front : (buf.fgets handle).bytes.take (n + 1) = handle.read.take (n + 1) := by
      rw [fgets_bytes buf some, List.take_append_of_le_length within]
    rw [last]
    split
    · next ends => exact iff_of_true (strlen_terminate_le _ inside) (.inr (.inl ends))
    · next goes =>
      rw [strlen_le_iff _ inside, front, or_iff_right short, or_iff_right goes]

end Buffer

/-! ## A row of the board -/

/-- The board with the beginning of a line in one row, `width` columns of it. -/
def Board.withRow (board : Board settings) (row : Int) (line : ByteString) (width : Nat) :
    Board settings :=
  fun cell =>
    if cell.row = row ∧ cell.col < width then line.getD cell.col.toNat 0 else board cell

theorem withRow_zero (board : Board settings) (row : Int) (line : ByteString) :
    board.withRow row line 0 = board := by
  funext cell
  have bounds := cell.bounds
  exact if_neg (by omega)

theorem withRow_succ (board : Board settings) (line : ByteString) (width : Nat) (row : Int)
    (within : settings.Within row width) :
    Function.update (board.withRow row line width) ⟨row, width, within⟩ (line.getD width 0) =
      board.withRow row line (width + 1) := by
  funext cell
  rw [Function.update_apply]
  unfold Board.withRow
  by_cases new : cell = ⟨row, width, within⟩
  · have written : cell.row = row ∧ cell.col < ((width + 1 : Nat) : Int) := by
      rw [new]
      exact ⟨rfl, Int.ofNat_lt.mpr (Nat.lt_succ_self width)⟩
    rw [if_pos new, if_pos written, new]
    rfl
  · rw [if_neg new]
    rw [Cell.ext_iff, not_and] at new
    by_cases here : cell.row = row
    · have other := new here
      simp only at other
      have same : cell.col < (width : Int) ↔ cell.col < ((width + 1 : Nat) : Int) := by omega
      simp only [here, true_and, same]
    · simp only [here, false_and]

theorem writeRow_columns (board : Board settings) {row : Int}
    (rowWithin : 0 ≤ row ∧ row < settings.numRows) (buf : Buffer) {width : Nat}
    (fits : (width : Int) ≤ settings.numCols) (inside : width ≤ bufLen) :
    (List.range width).foldlM
        (fun board (j : Nat) => do Board.write board row j (← buf.charAt j)) board =
      .ok (board.withRow row buf.bytes width) := by
  induction width with
  | zero =>
      rw [withRow_zero]
      rfl
  | succ width induction =>
      have within : settings.Within row width := by
        rw [Settings.within_iff]
        omega
      have read : buf.charAt width = .ok (buf.bytes.getD width 0) := by
        rw [Buffer.charAt, if_pos (by omega), Int.toNat_natCast]
      rw [List.range_succ, List.foldlM_append, induction (by omega) (by omega)]
      simp only [List.foldlM_cons, List.foldlM_nil, bind, Except.bind, read, Board.write,
        dif_pos within, pure, Except.pure]
      rw [withRow_succ]

theorem writeRow_of_within (board : Board settings) {row : Int}
    (rowWithin : 0 ≤ row ∧ row < settings.numRows) (buf : Buffer)
    (inside : settings.numCols.toNat ≤ bufLen) :
    writeRow board row buf = .ok (board.withRow row buf.bytes settings.numCols.toNat) := by
  by_cases columns : 0 ≤ settings.numCols
  · exact writeRow_columns board rowWithin buf (by omega) inside
  · have none : settings.numCols.toNat = 0 := by omega
    rw [writeRow, none, withRow_zero]
    rfl

theorem writeRow_of_no_columns (board : Board settings) (row : Int) (buf : Buffer)
    (none : settings.numCols = 0) : writeRow board row buf = .ok board := by
  rw [writeRow, none]
  rfl

/-- The first write to a row behind the last one is out of bounds. -/
theorem writeRow_of_beyond (board : Board settings) {row : Int} (beyond : settings.numRows ≤ row)
    (buf : Buffer) (columns : 0 < settings.numCols) :
    writeRow board row buf = .error .outOfBounds := by
  obtain ⟨others, width⟩ : ∃ others, settings.numCols.toNat = others + 1 :=
    ⟨settings.numCols.toNat - 1, by omega⟩
  have outside : ¬ settings.Within row ((0 : Nat) : Int) := by
    rw [Settings.within_iff]
    omega
  have read : buf.charAt ((0 : Nat) : Int) = .ok (buf.bytes.getD 0 0) := by
    rw [Buffer.charAt, if_pos (by decide)]
    rfl
  rw [writeRow, width, List.range_succ_eq_map, List.foldlM_cons, read]
  simp only [bind, Except.bind, Board.write, dif_neg outside]

/-! ## The loop over the reads -/

/-- What the loop starts with in front of a read. -/
def ReadState.before (board : Board settings) (buf : Buffer) (handle : FileHandle) (row : Int) :
    ReadState settings where
  board := board
  buf := buf.fgets handle
  handle := handle.next
  row := row

section Loop

variable {filename : String} {board : Board settings} {buf : Buffer} {handle : FileHandle}
  {row : Int}

theorem FileHandle.read_ne_nil (more : handle.next.eof = false) : handle.read ≠ [] := by
  intro none
  simp [next, none, bufLen] at more

theorem readLoop_of_end (ends : handle.next.eof = true) :
    readLoop filename (.before board buf handle row) = .ok (.before board buf handle row) := by
  rw [readLoop]
  exact if_pos ends

/-- A line that fits goes to the board. -/
theorem storeLine_of_fits (some : handle.read ≠ [])
    (columns : 0 ≤ settings.numCols ∧ settings.numCols < bufLen)
    (fits : Fits settings.numCols.toNat handle.read) :
    storeLine filename board (buf.fgets handle) row =
      (writeRow board row ((buf.fgets handle).stripped settings.numCols.toNat)).map fun after =>
        (after, (buf.fgets handle).stripped settings.numCols.toNat) := by
  have inside : settings.numCols.toNat < bufLen := by omega
  have narrow := (buf.strlen_stripped_le_iff inside some).mpr fits
  have last : (buf.fgets handle).charAt settings.numCols =
      .ok ((buf.fgets handle).bytes.getD settings.numCols.toNat 0) := by
    rw [Buffer.charAt, if_pos columns]
  simp only [storeLine, last, bind, Except.bind, Buffer.stripped_def]
  refine (if_neg (Nat.not_lt.mpr narrow)).trans ?_
  cases writeRow board row ((buf.fgets handle).stripped settings.numCols.toNat) with
  | error stop => rfl
  | ok after => rfl

theorem storeLine_of_not_fits (some : handle.read ≠ [])
    (columns : 0 ≤ settings.numCols ∧ settings.numCols < bufLen)
    (wide : ¬ Fits settings.numCols.toNat handle.read) :
    ∃ output, storeLine filename board (buf.fgets handle) row = .error (.exit output) := by
  have inside : settings.numCols.toNat < bufLen := by omega
  have width := buf.strlen_stripped_le_iff inside some
  have last : (buf.fgets handle).charAt settings.numCols =
      .ok ((buf.fgets handle).bytes.getD settings.numCols.toNat 0) := by
    rw [Buffer.charAt, if_pos columns]
  simp only [storeLine, last, bind, Except.bind, Buffer.stripped_def]
  exact ⟨_, if_pos (Nat.lt_of_not_le fun narrow => wide (width.mp narrow))⟩

theorem readLoop_of_error (more : handle.next.eof = false) {stop : Stop}
    (stored : storeLine filename board (buf.fgets handle) row = .error stop) :
    readLoop filename (.before board buf handle row) = .error stop := by
  rw [readLoop]
  simp [ReadState.before, more, stored]

theorem readLoop_of_stored (more : handle.next.eof = false) {after : Board settings}
    {line : Buffer}
    (stored : storeLine filename board (buf.fgets handle) row = .ok (after, line)) :
    readLoop filename (.before board buf handle row) =
      readLoop filename (.before after line handle.next (row + 1)) := by
  rw [readLoop]
  simp [ReadState.before, more, stored]

theorem FileHandle.reads_eq_nil (none : handle.reads = []) : handle.next.eof = true := by
  cases ends : handle.next.eof with
  | true => rfl
  | false => simp [handle.reads_eq, ends] at none

theorem FileHandle.reads_eq_cons {read : ByteString} {rest : List ByteString}
    (found : handle.reads = read :: rest) :
    handle.next.eof = false ∧ handle.read = read ∧ handle.next.reads = rest := by
  cases ends : handle.next.eof with
  | true => simp [handle.reads_eq, ends] at found
  | false =>
      rw [handle.reads_eq, ends, if_neg Bool.false_ne_true, List.cons.injEq] at found
      exact ⟨rfl, found⟩

theorem exists_writeRow (board : Board settings) (buf : Buffer)
    (columns : 0 ≤ settings.numCols ∧ settings.numCols < bufLen) (rowWithin : 0 ≤ row)
    (room : settings.numCols = 0 ∨ row < settings.numRows) :
    ∃ after, writeRow board row buf = .ok after := by
  rcases room with none | below
  · exact ⟨board, writeRow_of_no_columns board row buf none⟩
  · exact ⟨_, writeRow_of_within board ⟨rowWithin, below⟩ buf (by omega)⟩

/-- Good reads in front are stored, as far as there are rows for them. -/
theorem readLoop_of_good (columns : 0 ≤ settings.numCols ∧ settings.numCols < bufLen)
    {good rest : List ByteString} (split : handle.reads = good ++ rest)
    (fit : ∀ read ∈ good, Fits settings.numCols.toNat read) (rowWithin : 0 ≤ row)
    (room : settings.numCols = 0 ∨ row + good.length ≤ settings.numRows) :
    ∃ (after : Board settings) (line : Buffer) (behind : FileHandle),
      readLoop filename (.before board buf handle row) =
        readLoop filename (.before after line behind (row + good.length)) ∧
      behind.reads = rest := by
  induction good generalizing handle board buf row with
  | nil => exact ⟨board, buf, handle, by simp, by simpa using split⟩
  | cons read good induction =>
      rcases FileHandle.reads_eq_cons split with ⟨more, rfl, later⟩
      rw [List.forall_mem_cons] at fit
      rw [List.length_cons] at room
      have here : settings.numCols = 0 ∨ row < settings.numRows := by omega
      rcases exists_writeRow board ((buf.fgets handle).stripped settings.numCols.toNat) columns
        rowWithin here with ⟨written, ok⟩
      have stored : storeLine filename board (buf.fgets handle) row =
          .ok (written, (buf.fgets handle).stripped settings.numCols.toNat) := by
        rw [storeLine_of_fits (FileHandle.read_ne_nil more) columns fit.1, ok]
        rfl
      have nextWithin : 0 ≤ row + 1 := by omega
      have nextRoom : settings.numCols = 0 ∨ row + 1 + good.length ≤ settings.numRows := by omega
      rcases @induction written ((buf.fgets handle).stripped settings.numCols.toNat) handle.next
        (row + 1) later fit.2 nextWithin nextRoom with ⟨after, line, behind, goes, left⟩
      refine ⟨after, line, behind, ?_, left⟩
      have count : row + 1 + good.length = row + ((good.length + 1 : Nat) : Int) := by omega
      rw [readLoop_of_stored more stored, goes, List.length_cons, count]

theorem readLoop_of_wide (columns : 0 ≤ settings.numCols ∧ settings.numCols < bufLen)
    {wide : ByteString} {rest : List ByteString} (split : handle.reads = wide :: rest)
    (unfit : ¬ Fits settings.numCols.toNat wide) :
    ∃ output, readLoop filename (.before board buf handle row) = .error (.exit output) := by
  rcases FileHandle.reads_eq_cons split with ⟨more, rfl, later⟩
  have failed : ∃ output,
      storeLine filename board (buf.fgets handle) row = .error (.exit output) :=
    storeLine_of_not_fits (FileHandle.read_ne_nil more) columns unfit
  rcases failed with ⟨output, failed⟩
  exact ⟨output, readLoop_of_error more failed⟩

theorem readLoop_of_beyond (columns : 0 < settings.numCols ∧ settings.numCols < bufLen)
    {read : ByteString} {rest : List ByteString} (split : handle.reads = read :: rest)
    (fit : Fits settings.numCols.toNat read) (beyond : settings.numRows ≤ row) :
    readLoop filename (.before board buf handle row) = .error .outOfBounds := by
  rcases FileHandle.reads_eq_cons split with ⟨more, rfl, later⟩
  apply readLoop_of_error more
  rw [storeLine_of_fits (FileHandle.read_ne_nil more) ⟨Int.le_of_lt columns.1, columns.2⟩ fit,
    writeRow_of_beyond board beyond _ columns.1]
  rfl

end Loop

/-! ## Staying on the board -/

/-- The reads that go to the board: those in front of the first that is too wide. -/
def storedReads (settings : Settings) (content : ByteString) : List ByteString :=
  (reads (bufLen - 1) [] content).takeWhile fun read => Fits settings.numCols.toNat read

/-- No element outside the board is written. -/
def StaysOnBoard (filename : String) (content : ByteString) (buf : Buffer)
    (board : Board settings) : Prop :=
  readFile filename (some content) buf board ≠ .error .outOfBounds

theorem storedReads_split (settings : Settings) (content : ByteString) :
    (∃ rest, reads (bufLen - 1) [] content = storedReads settings content ++ rest ∧
      ∀ wide ∈ rest.head?, ¬ Fits settings.numCols.toNat wide) ∧
    ∀ read ∈ storedReads settings content, Fits settings.numCols.toNat read := by
  refine ⟨⟨_, List.takeWhile_append_dropWhile.symm, ?_⟩, ?_⟩
  · intro wide first
    have unfit := List.head?_dropWhile_not
      (fun read => decide (Fits settings.numCols.toNat read)) (reads (bufLen - 1) [] content)
    rw [Option.mem_def.mp first] at unfit
    simpa using unfit
  · intro read member
    simpa using List.mem_takeWhile_imp member

section Outcome

variable {content : ByteString} {filename : String} {buf : Buffer} {board : Board settings}

theorem readFile_of_loop_error {stop : Stop}
    (failed : readLoop filename
      (.before board buf { rest := content, eof := false } 0) = .error stop) :
    readFile filename (some content) buf board = .error stop := by
  unfold ReadState.before at failed
  simp only [readFile, failed]

theorem readFile_of_loop_ok {final : ReadState settings}
    (ends : readLoop filename
      (.before board buf { rest := content, eof := false } 0) = .ok final) :
    readFile filename (some content) buf board =
      if final.row ≠ settings.numRows then
        .error (.exit (rowsMessage filename final.row settings.numRows))
      else .ok final.board := by
  unfold ReadState.before at ends
  simp only [readFile, ends]

variable (filename buf board)

/-- Without a read that is too wide, the number of rows decides. -/
theorem readFile_of_all (columns : 0 ≤ settings.numCols ∧ settings.numCols < bufLen)
    (all : ∀ read ∈ reads (bufLen - 1) [] content, Fits settings.numCols.toNat read)
    (room : settings.numCols = 0 ∨
      (reads (bufLen - 1) [] content).length ≤ settings.numRows) :
    (((reads (bufLen - 1) [] content).length : Int) = settings.numRows ∧
        ∃ after, readFile filename (some content) buf board = .ok after) ∨
      (((reads (bufLen - 1) [] content).length : Int) ≠ settings.numRows ∧
        ∃ output, readFile filename (some content) buf board = .error (.exit output)) := by
  have split : FileHandle.reads { rest := content, eof := false } =
      reads (bufLen - 1) [] content ++ [] := (List.append_nil _).symm
  have goes : ∃ (after : Board settings) (line : Buffer) (behind : FileHandle),
      readLoop filename (.before board buf { rest := content, eof := false } 0) =
        readLoop filename
          (.before after line behind (0 + (reads (bufLen - 1) [] content).length)) ∧
      behind.reads = [] :=
    readLoop_of_good columns split all (Int.le_refl 0) (by simpa using room)
  rcases goes with ⟨after, line, behind, goes, left⟩
  rw [readLoop_of_end (FileHandle.reads_eq_nil left), Int.zero_add] at goes
  have outcome := readFile_of_loop_ok goes
  by_cases right : ((reads (bufLen - 1) [] content).length : Int) = settings.numRows
  · exact .inl ⟨right, after, outcome.trans (if_neg (not_not.mpr right))⟩
  · exact .inr ⟨right, _, outcome.trans (if_pos right)⟩

theorem readFile_of_wide (columns : 0 ≤ settings.numCols ∧ settings.numCols < bufLen)
    {good rest : List ByteString} {wide : ByteString}
    (split : reads (bufLen - 1) [] content = good ++ wide :: rest)
    (fit : ∀ read ∈ good, Fits settings.numCols.toNat read)
    (unfit : ¬ Fits settings.numCols.toNat wide)
    (room : settings.numCols = 0 ∨ good.length ≤ settings.numRows) :
    ∃ output, readFile filename (some content) buf board = .error (.exit output) := by
  have split : FileHandle.reads { rest := content, eof := false } = good ++ wide :: rest := split
  rcases readLoop_of_good columns split fit (Int.le_refl 0) (by simpa using room) with
    ⟨after, line, behind, goes, left⟩
  rcases readLoop_of_wide columns left unfit with ⟨output, exits⟩
  exact ⟨output, readFile_of_loop_error (goes.trans exits)⟩

/-- One more read for the board than it has rows. -/
theorem readFile_of_crowded (columns : 0 < settings.numCols ∧ settings.numCols < bufLen)
    {good rest : List ByteString} {read : ByteString}
    (split : reads (bufLen - 1) [] content = good ++ read :: rest)
    (fit : ∀ read ∈ good, Fits settings.numCols.toNat read)
    (fits : Fits settings.numCols.toNat read) (full : (good.length : Int) = settings.numRows) :
    readFile filename (some content) buf board = .error .outOfBounds := by
  have split : FileHandle.reads { rest := content, eof := false } = good ++ read :: rest := split
  rcases readLoop_of_good ⟨Int.le_of_lt columns.1, columns.2⟩ split fit (Int.le_refl 0)
      (by omega) with
    ⟨after, line, behind, goes, left⟩
  exact readFile_of_loop_error (goes.trans (readLoop_of_beyond columns left fits (by omega)))

end Outcome

/-- The board is left if and only if more lines go to it than it has rows; a board
without columns cannot be left. -/
theorem staysOnBoard_iff (filename : String) (content : ByteString) (buf : Buffer)
    (board : Board settings) (rows : 0 ≤ settings.numRows)
    (columns : 0 ≤ settings.numCols ∧ settings.numCols ≤ 998) :
    StaysOnBoard filename content buf board ↔
      settings.numCols = 0 ∨ (storedReads settings content).length ≤ settings.numRows := by
  have inside : 0 ≤ settings.numCols ∧ settings.numCols < bufLen :=
    ⟨columns.1, Int.lt_of_le_of_lt columns.2 (by decide)⟩
  rcases storedReads_split settings content with ⟨⟨rest, split, first⟩, fit⟩
  constructor
  · intro stays
    by_contra crowded
    rw [not_or] at crowded
    have more : settings.numRows.toNat < (storedReads settings content).length := by omega
    have parted := List.take_append_drop settings.numRows.toNat (storedReads settings content)
    rw [List.drop_eq_getElem_cons more] at parted
    rw [← parted, List.append_assoc, List.cons_append] at split
    refine stays (readFile_of_crowded filename buf board ⟨by omega, inside.2⟩ split ?_ ?_ ?_)
    · exact fun read member => fit read (List.mem_of_mem_take member)
    · exact fit _ (List.getElem_mem more)
    · rw [List.length_take_of_le (Nat.le_of_lt more)]
      exact Int.toNat_of_nonneg rows
  · intro room outOfBounds
    cases rest with
    | nil =>
        rw [List.append_nil] at split
        rw [← split] at fit room
        rcases readFile_of_all filename buf board inside fit room with
          ⟨-, after, returns⟩ | ⟨-, output, exits⟩
        · rw [returns] at outOfBounds
          cases outOfBounds
        · exact ne_outOfBounds_of_exits ⟨output, exits⟩ outOfBounds
    | cons wide others =>
        have exits := readFile_of_wide filename buf board inside split fit (first wide rfl) room
        exact ne_outOfBounds_of_exits exits outOfBounds

def emptyBuffer : Buffer where
  bytes := List.replicate bufLen 0
  length := List.length_replicate

def narrowSettings : Settings where
  numRows := 1
  numCols := 2

theorem staysOnBoard_row :
    StaysOnBoard "board.txt" (text "X.\n") emptyBuffer (fun _ : Cell narrowSettings => dead) ↔
      narrowSettings.numCols = 0 ∨
        (storedReads narrowSettings (text "X.\n")).length ≤ narrowSettings.numRows :=
  staysOnBoard_iff "board.txt" (text "X.\n") emptyBuffer _ (by decide) (by decide)

/-- A second line of a file, for a board of one row. -/
theorem not_staysOnBoard_of_second_line :
    ¬ StaysOnBoard "board.txt" (text "X.\n.X\n") emptyBuffer
      (fun _ : Cell narrowSettings => dead) := by
  intro stays
  have split : reads (bufLen - 1) [] (text "X.\n.X\n") =
      [text "X.\n"] ++ text ".X\n" :: [] := by decide
  exact stays (readFile_of_crowded "board.txt" emptyBuffer _ (by decide) split (by decide)
    (by decide) (by decide))

end Pmud.Life
