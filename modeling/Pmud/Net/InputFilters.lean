import Pmud.Net.LineFraming

/-! # What the input filters keep

A read goes through the test for a break, the scan of `lite_sanitize` and, with
the rest of its line, through `sanitize`.
-/

namespace Pmud.Net

open Pmud.Foundation

namespace CommStatic

/-- The bytes of a read that `lite_sanitize` means to keep. -/
def printable (bytes : ByteString) : ByteString := bytes.filter fun c => 10 ≤ c ∧ c ≤ 127

theorem sanitize_append (first second : ByteString) :
    sanitize (first ++ second) = sanitize first ++ sanitize second :=
  List.filter_append ..

/-- The second pass finds nothing that the first has dropped by its range. -/
theorem sanitize_printable (bytes : ByteString) :
    sanitize (printable bytes) = sanitize bytes := by
  unfold sanitize printable
  rw [List.filter_filter]
  apply List.filter_congr
  intro c _
  simp only [UInt8.le_iff_toNat_le, UInt8.reduceToNat, ← Bool.decide_and, decide_eq_decide]
  omega

theorem printable_split (bytes : ByteString) :
    printable bytes = scanned bytes ++ printable (bytes.dropWhile fun c => c ≠ 0) := by
  rw [scanned, printable, printable, ← List.filter_append, List.takeWhile_append_dropWhile]

end CommStatic

open CommStatic

/-! ## When nothing is lost -/

/-- A read that begins with 0xff has nothing that the reader keeps, and no other has such a
byte behind a NUL. -/
def KeepsRead (bytes : ByteString) : Prop :=
  if bytes.headD 0 = 0xff then printable bytes = []
  else printable (bytes.dropWhile fun c => c ≠ 0) = []

instance (bytes : ByteString) : Decidable (KeepsRead bytes) := by
  unfold KeepsRead
  infer_instance

/-- All reads are kept, and no character is among the bytes that are left unread. -/
def KeepsInput (arrivals : List Arrival) (unread : ByteString) : Prop :=
  (∀ arrival ∈ arrivals, KeepsRead arrival.bytes) ∧ sanitize unread = []

instance (arrivals : List Arrival) (unread : ByteString) :
    Decidable (KeepsInput arrivals unread) :=
  inferInstanceAs (Decidable ((∀ arrival ∈ arrivals, _) ∧ _))

theorem textOf_eq_printable_iff (arrival : Arrival) :
    textOf arrival = printable arrival.bytes ↔ KeepsRead arrival.bytes := by
  cases arrival with
  | none => decide
  | some read =>
      change (if isBreak read.bytes then [] else scanned read.bytes) = printable read.bytes ↔
        KeepsRead read.bytes
      rw [KeepsRead]
      by_cases large : read.bytes.headD 0 = 0xff
      · have broken : isBreak read.bytes = true := by
          rw [isBreak, large]
          rfl
        rw [if_pos broken, if_pos large, eq_comm]
      · rw [if_neg large]
        by_cases single : read.bytes = [4]
        · rw [single]
          decide
        · have whole : ¬ isBreak read.bytes = true := by simpa [isBreak, single] using large
          rw [if_neg whole, printable_split read.bytes]
          exact List.self_eq_append_right

/-- Wherever the lines are cut, what comes through is passed on or pending. -/
theorem gathered_visible (carry : ByteString) (arrivals : List Arrival) :
    (gathered carry arrivals).1.flatten ++ sanitize (gathered carry arrivals).2 =
      sanitize carry ++ sanitize (arrivals.flatMap textOf) := by
  induction arrivals generalizing carry with
  | nil => simp [gathered, sanitize]
  | cons arrival rest induction =>
      simp only [gathered, List.flatMap_cons, sanitize_append]
      split
      · rw [induction, sanitize_append, List.append_assoc]
      · have blank : sanitize [] = [] := rfl
        rw [List.flatten_cons, List.append_assoc, induction [], blank, List.nil_append,
          List.append_assoc]

/-- The characters 32..127 of the client's stream, read and `unread`, are those of the
lines passed on and of the pending line, and from each read the reader gets all
bytes 10..127. -/
def NoInputLost (run : PollRun) (unread : ByteString) : Prop :=
  run.passed.flatten ++ sanitize run.currentInput = sanitize (run.stream ++ unread) ∧
    ∀ arrival ∈ run.arrivals,
      (run.1.actor.comm.readFromUser arrival.socket).1.2 = printable arrival.bytes

instance (run : PollRun) (unread : ByteString) : Decidable (NoInputLost run unread) :=
  inferInstanceAs (Decidable (_ ∧ ∀ arrival ∈ _, _))

theorem noInputLost_iff (id : Nat) (comm : CommStatic) (welcome : ByteString)
    (answers : List (Option Nat)) {events : List ConnectionEvent} {final : PollRun}
    (reached : PollRun.step.execute (.spawn id comm welcome answers) events = some final)
    (stays : ∀ line ∈ (gathered [] final.arrivals).1, ConnectionActor.quitsOn line = false)
    (unread : ByteString) :
    NoInputLost final unread ↔ KeepsInput final.arrivals unread := by
  rcases PollRun.gathers id comm welcome answers reached with ⟨pending, lines⟩
  have all : passedOn (gathered [] final.arrivals).1 = (gathered [] final.arrivals).1 := by
    rw [passedOn, List.filter_eq_self]
    intro line member
    rw [stays line member]
    rfl
  have visible := gathered_visible [] final.arrivals
  have reads : (∀ arrival ∈ final.arrivals,
      (final.1.actor.comm.readFromUser arrival.socket).1.2 = printable arrival.bytes) ↔
      ∀ arrival ∈ final.arrivals, KeepsRead arrival.bytes := by
    apply forall₂_congr
    intro arrival member
    rw [readFromUser_text]
    exact textOf_eq_printable_iff arrival
  rw [NoInputLost, KeepsInput, lines, all, pending, visible, reads, and_comm]
  apply and_congr_right
  intro keeps
  have texts : final.arrivals.flatMap textOf = printable final.stream := by
    rw [PollRun.stream, streamOf, printable, List.filter_flatMap]
    exact List.flatMap_congr fun arrival member =>
      (textOf_eq_printable_iff arrival).mpr (keeps arrival member)
  have nothing : sanitize [] = [] := rfl
  rw [texts, sanitize_printable, sanitize_append, nothing, List.nil_append]
  exact List.self_eq_append_right

/-- A line in two reads with a control byte in it. -/
def splitLine : List ConnectionEvent :=
  prompted ++ [polled (text "lo\u0007ok "), idlePoll, polled (text "up\n")]

theorem noInputLost_splitLine :
    ∃ final, PollRun.step.execute (.spawn 7 ⟨4, by decide⟩ [] []) splitLine = some final ∧
      NoInputLost final [] := by
  have found : (PollRun.step.execute (.spawn 7 ⟨4, by decide⟩ [] []) splitLine).map
      PollRun.arrivals = some [none, none, some (.of (text "lo\u0007ok ")), none,
        some (.of (text "up\n"))] := by
    decide
  rcases Option.map_eq_some_iff.mp found with ⟨final, reached, arrivals⟩
  refine ⟨final, reached, (noInputLost_iff 7 ⟨4, by decide⟩ [] [] reached ?_ []).mpr ?_⟩
  · rw [arrivals]
    decide
  · rw [arrivals]
    decide

/-- A run in which one read, of more than the byte 4, costs input, though no line quits. -/
def LosesInput (comm : CommStatic) (bytes : ByteString) : Prop :=
  bytes ≠ [4] ∧
    ∃ final, PollRun.step.execute (.spawn 7 comm [] []) (prompted ++ [polled bytes]) =
        some final ∧
      (∀ line ∈ (gathered [] final.arrivals).1, ConnectionActor.quitsOn line = false) ∧
      ¬ NoInputLost final []

theorem losesInput_of_run {comm : CommStatic} {bytes : ByteString} (other : bytes ≠ [4])
    (loses : (PollRun.step.execute (.spawn 7 comm [] []) (prompted ++ [polled bytes])).map
      (fun final : PollRun => decide
        ((∀ line ∈ (gathered [] final.arrivals).1, ConnectionActor.quitsOn line = false) ∧
          ¬ NoInputLost final [])) = some true) : LosesInput comm bytes := by
  rcases Option.map_eq_some_iff.mp loses with ⟨final, reached, lost⟩
  exact ⟨other, final, reached, of_decide_eq_true lost⟩

/-- The answer of a telnet client to `DO ECHO` in one read with a line, a NUL in a line, and a
NUL in front of a line end. -/
theorem not_noInputLost_of_lossyReads :
    LosesInput ⟨4, by decide⟩ ([0xff, 0xfc, 0x01] ++ text "look\n") ∧
      LosesInput ⟨4, by decide⟩ (text "lo\u0000ok\n") ∧
      LosesInput ⟨4, by decide⟩ (text "look\u0000\n") :=
  ⟨losesInput_of_run (by decide) (by decide), losesInput_of_run (by decide) (by decide),
    losesInput_of_run (by decide) (by decide)⟩

end Pmud.Net
