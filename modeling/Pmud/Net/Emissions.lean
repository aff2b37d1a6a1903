import Pmud.Net.CommStatic

/-! # What an emission says of its bytes

`send` may take a part of what it is given, and `emit` tests its answer for -1
only.
-/

namespace Pmud.Net

namespace Emission

theorem andThen_assoc (first second third : Emission) :
    (first.andThen second).andThen third = first.andThen (second.andThen third) := by
  funext socket
  simp only [andThen]
  cases first socket with
  | mk sent after =>
      cases sent with
      | true => rfl
      | false => rfl

theorem andThen_done (emission : Emission) :
    emission.andThen (fun socket => (true, socket)) = emission := by
  funext socket
  simp only [andThen]
  cases emission socket with
  | mk sent after =>
      cases sent with
      | true => rfl
      | false => rfl

end Emission

namespace CommStatic

/-! ## Sending piece by piece -/

/-- The strings that `emit` is called with for the lines. -/
def pieces (lines : List ByteString) : List ByteString :=
  lines.flatMap fun line => [line, cr, newlineString]

/-- Every line with its end, as the socket should get them. -/
def framed (lines : List ByteString) : ByteString :=
  lines.flatMap fun line => line ++ cr ++ newlineString

def emitAll (comm : CommStatic) : List ByteString → Emission
  | [] => fun socket => (true, socket)
  | piece :: rest => (comm.emit piece).andThen (comm.emitAll rest)

theorem flatten_pieces (lines : List ByteString) : (pieces lines).flatten = framed lines := by
  induction lines with
  | nil => rfl
  | cons line rest induction =>
      have later : (rest.flatMap fun line => [line, cr, newlineString]).flatten = framed rest :=
        induction
      simp [pieces, framed, later]

theorem emitLines_eq (comm : CommStatic) (lines : List ByteString) :
    comm.emitLines lines = comm.emitAll (pieces lines) := by
  funext socket
  induction lines generalizing socket with
  | nil => rfl
  | cons line rest induction =>
      have later : comm.emitLines rest = comm.emitAll (pieces rest) := funext induction
      rw [emitLines, later, emitLine, Emission.andThen_assoc, Emission.andThen_assoc]
      rfl

theorem emitLine_eq (comm : CommStatic) (line : ByteString) :
    comm.emitLine line = comm.emitAll (pieces [line]) := by
  rw [emitLine, Emission.andThen_assoc]
  change _ = (comm.emit line).andThen
    ((comm.emit cr).andThen ((comm.emit newlineString).andThen fun socket => (true, socket)))
  rw [Emission.andThen_done]

/-! ## What the socket takes -/

/-- One of the pieces is answered with -1. -/
def fails : List ByteString → (answers : List (Option Nat)) → Bool
  | [], _ => false
  | piece :: rest, answers =>
      if piece = [] then fails rest answers
      else if answers.head?.join.isNone then true
      else fails rest answers.tail

/-- The bytes accepted of the pieces, up to the first -1. -/
def taken : List ByteString → (answers : List (Option Nat)) → ByteString
  | [], _ => []
  | piece :: rest, answers =>
      if piece = [] then taken rest answers
      else
        match answers.head?.join with
        | none => []
        | some count => piece.take count ++ taken rest answers.tail

/-- The bytes accepted in these calls. -/
def acceptedBytes (calls : List SystemCall) : ByteString :=
  calls.flatMap fun
    | .send _ bytes accepted => bytes.take (accepted.getD 0)
    | _ => []

theorem emitAll_spec (comm : CommStatic) (strings : List ByteString) (socket : Socket) :
    (comm.emitAll strings socket).1 = !fails strings socket.sends ∧
      ∃ made, (comm.emitAll strings socket).2.calls = socket.calls ++ made ∧
        acceptedBytes made = taken strings socket.sends := by
  induction strings generalizing socket with
  | nil => exact ⟨rfl, [], by simp [emitAll], rfl⟩
  | cons piece rest induction =>
      by_cases empty : piece = []
      · have skipped : comm.emitAll (piece :: rest) socket = comm.emitAll rest socket := by
          simp [emitAll, Emission.andThen, emit, empty]
        rw [skipped, fails, taken, if_pos empty, if_pos empty]
        exact induction socket
      · have positive : 0 < piece.length := List.length_pos_iff.mpr empty
        rcases induction (socket.send comm.connection piece).2 with ⟨result, made, calls, bytes⟩
        rw [fails, taken, if_neg empty, if_neg empty]
        cases answer : socket.sends.head?.join with
        | none =>
            refine ⟨?_, [.send comm.connection piece none], ?_, rfl⟩
            · simp [emitAll, Emission.andThen, emit, positive, Socket.send, answer]
            · simp [emitAll, Emission.andThen, emit, positive, Socket.send, answer]
        | some count =>
            have sent : comm.emitAll (piece :: rest) socket =
                comm.emitAll rest (socket.send comm.connection piece).2 := by
              simp [emitAll, Emission.andThen, emit, positive, Socket.send, answer]
            rw [sent]
            refine ⟨result, .send comm.connection piece (some count) :: made, ?_, ?_⟩
            · rw [calls]
              simp [Socket.send, answer]
            · exact congrArg (piece.take count ++ ·) bytes

theorem taken_length_le (strings : List ByteString) (answers : List (Option Nat)) :
    (taken strings answers).length ≤ strings.flatten.length := by
  induction strings generalizing answers with
  | nil => exact Nat.le_refl _
  | cons piece rest induction =>
      rw [taken, List.flatten_cons, List.length_append]
      split
      · exact Nat.le_trans (induction answers) (Nat.le_add_left _ _)
      · split
        · exact Nat.zero_le _
        · rw [List.length_append]
          exact Nat.add_le_add (List.length_take_le' _ _) (induction answers.tail)

/-! ## When the answer is true -/

/-- No piece before the first -1 is taken in part, or else the -1 comes and what
was taken of the pieces in between is what should have come. -/
def Gapless : List ByteString → (answers : List (Option Nat)) → Prop
  | [], _ => True
  | piece :: rest, answers =>
      if piece = [] then Gapless rest answers
      else
        match answers.head?.join with
        | none => True
        | some count =>
            if piece.length ≤ count then Gapless rest answers.tail
            else
              fails rest answers.tail = true ∧
                taken rest answers.tail <+: piece.drop count ++ rest.flatten

theorem gapless_iff (strings : List ByteString) (answers : List (Option Nat)) :
    ((fails strings answers = false → taken strings answers = strings.flatten) ∧
      (fails strings answers = true → taken strings answers <+: strings.flatten)) ↔
      Gapless strings answers := by
  induction strings generalizing answers with
  | nil => simp [fails, taken, Gapless]
  | cons piece rest induction =>
      rw [Gapless, fails, taken]
      by_cases empty : piece = []
      · simpa [empty] using induction answers
      · simp only [empty, if_false, List.flatten_cons]
        cases answer : answers.head?.join with
        | none => simp
        | some count =>
            simp only [Option.isNone_some, Bool.false_eq_true, if_false]
            by_cases full : piece.length ≤ count
            · rw [if_pos full, List.take_of_length_le full, ← induction answers.tail]
              simp only [List.append_cancel_left_eq, List.prefix_append_right_inj]
            · rw [if_neg full]
              have short : piece.take count ++ taken rest answers.tail ≠
                  piece ++ rest.flatten := by
                intro equal
                have lengths := congrArg List.length equal
                have least := taken_length_le rest answers.tail
                rw [List.length_append, List.length_append, List.length_take] at lengths
                omega
              have split : piece ++ rest.flatten =
                  piece.take count ++ (piece.drop count ++ rest.flatten) := by
                rw [← List.append_assoc, List.take_append_drop]
              rw [split] at short ⊢
              rw [List.prefix_append_right_inj]
              cases failed : fails rest answers.tail with
              | true => simp
              | false => simpa using short

/-- A true answer means that all bytes were accepted, a false one that those
accepted are the first of them. -/
def Reported (emission : Emission) (lines : List ByteString) (socket : Socket) : Prop :=
  let (sent, after) := emission socket
  let accepted := acceptedBytes (after.calls.drop socket.calls.length)
  (sent = true → accepted = framed lines) ∧ (sent = false → accepted <+: framed lines)

theorem reported_iff {comm : CommStatic} {emission : Emission} {lines : List ByteString}
    (sent : emission = comm.emitAll (pieces lines)) (socket : Socket) :
    Reported emission lines socket ↔ Gapless (pieces lines) socket.sends := by
  rcases comm.emitAll_spec (pieces lines) socket with ⟨result, made, calls, bytes⟩
  rw [← gapless_iff, flatten_pieces, ← bytes]
  simp only [Reported, sent, result, calls, List.drop_left, Bool.not_eq_true', Bool.not_eq_false']

end CommStatic

open CommStatic in
/-- What `emit(vector)` and `emit_line` answer is true of their bytes if no send
leaves a gap. -/
theorem emissions_reported_iff (comm : CommStatic) (socket : Socket) :
    (∀ lines, Reported (comm.emitLines lines) lines socket ↔
      Gapless (pieces lines) socket.sends) ∧
    ∀ line, Reported (comm.emitLine line) [line] socket ↔
      Gapless (pieces [line]) socket.sends :=
  ⟨fun lines => reported_iff (comm.emitLines_eq lines) socket,
    fun line => reported_iff (comm.emitLine_eq line) socket⟩

open CommStatic in
/-- Three bytes of a line of five are taken, and the rest is never sent. -/
theorem not_reported_of_shortSend :
    let socket : Socket := { sends := [some 3, some 1, some 1], peeked := -1, reading := none }
    (emitLines ⟨4, by decide⟩ [text "hello"] socket).1 = true ∧
      acceptedBytes (emitLines ⟨4, by decide⟩ [text "hello"] socket).2.calls = text "hel\r\n" ∧
      ¬ Reported (emitLines ⟨4, by decide⟩ [text "hello"]) [text "hello"] socket := by
  refine ⟨by decide, by decide, ?_⟩
  intro holds
  exact absurd (holds.1 (by decide)) (by decide)

end Pmud.Net
