import Pmud.Net.ConnectionActor

/-! # Polls

What a poll makes of the bytes of a read.
-/

namespace Pmud.Net

/-- What one poll finds: nothing, or the bytes of the next read. -/
abbrev Arrival := Option ReadBytes

def Arrival.socket (arrival : Arrival) : Socket where
  sends := []
  peeked := (arrival.map fun read => (read.bytes.length : Int)).getD (-1)
  reading := arrival

def Arrival.bytes (arrival : Arrival) : ByteString := (arrival.map ReadBytes.bytes).getD []

/-- What a poll with these answers of the operating system reads. -/
def Socket.found (socket : Socket) : Arrival :=
  if 0 < socket.peeked then socket.reading else none

namespace CommStatic

/-- Reads that `read_from_user` takes for a break. -/
def isBreak (bytes : ByteString) : Bool := bytes.headD 0 = 0xff || bytes = [4]

/-- What `lite_sanitize` leaves of the bytes of a read. -/
def scanned (bytes : ByteString) : ByteString :=
  (bytes.takeWhile fun c => c ≠ 0).filter fun c => 10 ≤ c ∧ c ≤ 127

/-- What `read_from_user` makes of what a poll finds. -/
def textOf : Arrival → ByteString
  | none => []
  | some read => if isBreak read.bytes then [] else scanned read.bytes

theorem liteSanitizeFrom_eq {remaining : Nat} {bytes : ByteString}
    (fits : bytes.length ≤ remaining) (padding : ByteString) (zeros : ∀ c ∈ padding, c = 0) :
    liteSanitizeFrom remaining (bytes ++ padding) = scanned bytes := by
  induction bytes generalizing remaining with
  | nil =>
      cases remaining with
      | zero => rfl
      | succ remaining =>
          cases padding with
          | nil => rfl
          | cons c rest => simp [liteSanitizeFrom, zeros c List.mem_cons_self, scanned]
  | cons c rest induction =>
      cases remaining with
      | zero => simp at fits
      | succ remaining =>
          have room : rest.length ≤ remaining := by simpa using fits
          have later := induction room
          by_cases zero : c = 0
          · simp [liteSanitizeFrom, scanned, zero]
          · rw [List.cons_append, liteSanitizeFrom, if_neg zero, later]
            simp [scanned, zero, List.filter_cons]

theorem liteSanitize_filledBuffer (read : ReadBytes) :
    liteSanitize (filledBuffer read.bytes) = scanned read.bytes :=
  liteSanitizeFrom_eq read.bounded _ fun _ member => (List.mem_replicate.mp member).2

theorem isBreak_iff (read : ReadBytes) :
    (filledBuffer read.bytes).headD 0 = 0xff ∨
        ((read.bytes.length : Int) = 1 ∧ (filledBuffer read.bytes).headD 0 = 4) ↔
      isBreak read.bytes = true := by
  cases read.bytes with
  | nil => decide
  | cons c rest =>
      have head : (filledBuffer (c :: rest)).headD 0 = c := rfl
      have single : ((c :: rest).length : Int) = 1 ↔ rest = [] := by
        rw [← List.length_eq_zero_iff, List.length_cons]
        omega
      have broken : isBreak (c :: rest) = true ↔ c = 0xff ∨ c :: rest = [4] := by
        rw [isBreak, Bool.or_eq_true, decide_eq_true_iff, decide_eq_true_iff]
        rfl
      rw [head, single, broken, List.cons.injEq, and_comm]

theorem readFromUser_read (comm : CommStatic) {socket : Socket} {read : ReadBytes}
    (reading : socket.reading = some read) :
    (comm.readFromUser socket).1 =
      if isBreak read.bytes then (0, [])
      else ((read.bytes.length : Int), scanned read.bytes) := by
  have broken := isBreak_iff read
  simp only [readFromUser, reading, Option.map_some, Option.getD_some, liteSanitize_filledBuffer,
    broken, apply_ite Prod.fst]

theorem readFromUser_text (comm : CommStatic) (socket : Socket) :
    (comm.readFromUser socket).1.2 = textOf socket.reading := by
  cases reading : socket.reading with
  | none =>
      have blank := liteSanitize_filledBuffer (.of [])
      simp only [ReadBytes.of, List.take_nil] at blank
      simp only [readFromUser, reading, Option.map_none, Option.getD_none, blank,
        apply_ite Prod.fst, apply_ite Prod.snd, textOf]
      decide
  | some read =>
      rw [comm.readFromUser_read reading, textOf]
      split <;> rfl

/-- A count of 0 comes without text. -/
theorem readFromUser_nothing (comm : CommStatic) {socket : Socket}
    (nothing : (comm.readFromUser socket).1.1 = 0) : textOf socket.reading = [] := by
  cases reading : socket.reading with
  | none => rfl
  | some read =>
      rw [comm.readFromUser_read reading] at nothing
      rw [textOf]
      split at nothing
      · next broken => exact if_pos broken
      · next whole =>
        have empty : read.bytes = [] := by simpa using nothing
        rw [if_neg whole, empty]
        rfl

/-- A poll that finds a read gets its count and text. -/
theorem poll_read (comm : CommStatic) (read : ReadBytes) (nonempty : read.bytes ≠ []) :
    (comm.hasData (Arrival.socket (some read))).1 = true ∧
      (comm.readFromUser (comm.hasData (Arrival.socket (some read))).2).1 =
        if isBreak read.bytes then (0, [])
        else ((read.bytes.length : Int), scanned read.bytes) := by
  have positive : 0 < read.bytes.length := List.length_pos_iff.mpr nonempty
  exact ⟨by simp [hasData, Arrival.socket, positive], comm.readFromUser_read rfl⟩

end CommStatic

open CommStatic

namespace ConnectionActor

/-- A poll that finds nothing only polls again. -/
theorem receive_idle (actor : ConnectionActor) :
    (actor.receive (Arrival.socket none) .fromUserGetInput).actor = actor ∧
      (actor.receive (Arrival.socket none) .fromUserGetInput).sends =
        [(.connection, .fromUserGetInput)] := by
  simp [receive, fromUserGetInput, CommStatic.hasData, Arrival.socket]

/-- What a poll makes of a read, and what it sends. -/
inductive HandledRead (actor : ConnectionActor) (bytes : ByteString) (reaction : Reaction) : Prop
  | firstBreak (broken : isBreak bytes = true) (first : actor.breakCount = 0)
      (count : reaction.actor.breakCount = 1)
      (pending : reaction.actor.currentInput = actor.currentInput)
      (sends : reaction.sends = [(.connection, .fromUserGetInput)])
  | secondBreak (broken : isBreak bytes = true) (second : actor.breakCount ≠ 0)
      (pending : reaction.actor.currentInput = actor.currentInput)
      (sends : reaction.sends = [(.connection, .goodbyeConnection)])
  | part (text : isBreak bytes = false) (unterminated : newline ∉ scanned bytes)
      (count : reaction.actor.breakCount = 0)
      (pending : reaction.actor.currentInput = actor.currentInput ++ scanned bytes)
      (sends : reaction.sends = [(.connection, .fromUserGetInput)])
  | line (text : isBreak bytes = false) (terminated : newline ∈ scanned bytes)
      (stays : quitsOn (sanitize (actor.currentInput ++ scanned bytes)) = false)
      (count : reaction.actor.breakCount = 0) (pending : reaction.actor.currentInput = [])
      (sends : reaction.sends =
        [(.command, .onUserInput (sanitize (actor.currentInput ++ scanned bytes))),
          (.connection, .fromUserGetInput)])
  | quit (text : isBreak bytes = false) (terminated : newline ∈ scanned bytes)
      (quits : quitsOn (sanitize (actor.currentInput ++ scanned bytes)) = true)
      (sends : reaction.sends = [(.connection, .goodbyeConnection)])

theorem receive_read (actor : ConnectionActor) (read : ReadBytes) (nonempty : read.bytes ≠ []) :
    actor.HandledRead read.bytes
      (actor.receive (Arrival.socket (some read)) .fromUserGetInput) := by
  rcases actor.comm.poll_read read nonempty with ⟨ready, found⟩
  simp only [receive, fromUserGetInput, ready, if_true]
  cases broken : isBreak read.bytes with
  | true =>
      rw [broken, if_pos rfl] at found
      by_cases first : actor.breakCount = 0
      · exact .firstBreak broken first (by simp [found, first]) (by simp [found, first])
          (by simp [found, first])
      · exact .secondBreak broken first (by simp [found, first]) (by simp [found, first])
  | false =>
      rw [broken, if_neg Bool.false_ne_true] at found
      by_cases terminated : newline ∈ scanned read.bytes
      · cases quits : quitsOn (sanitize (actor.currentInput ++ scanned read.bytes)) with
        | true =>
            exact .quit broken terminated quits
              (by simp [found, nonempty, terminated, quits])
        | false =>
            exact .line broken terminated quits (by simp [found, nonempty, terminated, quits])
              (by simp [found, nonempty, terminated, quits])
              (by simp [found, nonempty, terminated, quits])
      · exact .part broken terminated (by simp [found, nonempty, terminated])
          (by simp [found, nonempty, terminated]) (by simp [found, nonempty, terminated])

end ConnectionActor

end Pmud.Net
