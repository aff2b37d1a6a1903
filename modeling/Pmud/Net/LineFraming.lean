import Pmud.Foundation.Lines
import Pmud.Net.PollRuns

/-! # Framing of input lines

The `OnUserInput` payloads of a run are compared with the newline-terminated
lines of the stream that its polls have read.
-/

namespace Pmud.Net

open Pmud.Foundation CommStatic

/-- Characters 32..127 and newlines. -/
def Typed (bytes : ByteString) : Prop :=
  ∀ c ∈ bytes, (32 ≤ c ∧ c ≤ 127) ∨ c = newline

instance (bytes : ByteString) : Decidable (Typed bytes) :=
  inferInstanceAs (Decidable (∀ c ∈ bytes, (32 ≤ c ∧ c ≤ 127) ∨ c = newline))

/-- The client sends typed characters. -/
def TypesInput (run : PollRun) (event : ConnectionEvent) : Prop :=
  Typed (PollRun.finds run.1 event).bytes

instance (run : PollRun) (event : ConnectionEvent) : Decidable (TypesInput run event) :=
  inferInstanceAs (Decidable (Typed _))

/-- The lines that should be passed on: the terminated lines of the stream, up
to the first that quits. -/
def linesToPass (carry stream : ByteString) : List ByteString :=
  (linesFrom newline carry stream).takeWhile fun line => !ConnectionActor.quitsOn line

/-- A line of the stream quits. -/
def Quits (stream : ByteString) : Prop :=
  ∃ line ∈ linesFrom newline [] stream, ConnectionActor.quitsOn line = true

instance (stream : ByteString) : Decidable (Quits stream) :=
  inferInstanceAs (Decidable (∃ line ∈ _, _))

/-- The lines of the stream are passed on, and its unterminated tail is pending
when no line quits. -/
def Frames (stream : ByteString) (passed : List ByteString) (pending : ByteString) : Prop :=
  passed = linesToPass [] stream ∧ (¬ Quits stream → pending = tailFrom newline [] stream)

instance (stream : ByteString) (passed : List ByteString) (pending : ByteString) :
    Decidable (Frames stream passed pending) :=
  inferInstanceAs (Decidable (_ ∧ (_ → _)))

def FramesLines (run : PollRun) : Prop := Frames run.stream run.passed run.currentInput

instance (run : PollRun) : Decidable (FramesLines run) :=
  inferInstanceAs (Decidable (Frames _ _ _))

/-! ## The condition on the cuts -/

/-- A read ends with its first newline. Behind a line that quits it may hold
further newlines; what is read after such a line, by a poll that was queued in
front of the goodbye, has to quit again as soon as it holds a newline. -/
def CutAtLineEnd (stream carry bytes : ByteString) : Prop :=
  newline ∈ bytes →
    let body := bytes.takeWhile fun c => c ≠ newline
    let behind := (bytes.dropWhile fun c => c ≠ newline).tail
    if Quits stream then ConnectionActor.quitsOn (sanitize (carry ++ bytes)) = true
    else if ConnectionActor.quitsOn (carry ++ body) then ∀ c ∈ behind, c = newline
    else behind = []

instance (stream carry bytes : ByteString) : Decidable (CutAtLineEnd stream carry bytes) := by
  have newlines (behind : ByteString) : Decidable (∀ c ∈ behind, c = newline) :=
    List.decidableBAll _ behind
  unfold CutAtLineEnd
  infer_instance

/-- The read that is found, if any, is cut so. -/
def CutsAtLineEnd (run : PollRun) (event : ConnectionEvent) : Prop :=
  CutAtLineEnd run.stream run.currentInput (PollRun.finds run.1 event).bytes

instance (run : PollRun) (event : ConnectionEvent) : Decidable (CutsAtLineEnd run event) :=
  inferInstanceAs (Decidable (CutAtLineEnd _ _ _))

/-! ## Filters on typed bytes -/

namespace CommStatic

theorem kept_of_typed {bytes : ByteString} (typed : Typed bytes) {c : UInt8}
    (member : c ∈ bytes) :
    c ≠ 0 ∧ 10 ≤ c ∧ c ≤ 127 := by
  rcases typed c member with ⟨lower, upper⟩ | equal
  · simp only [ne_eq, ← UInt8.toNat_inj, UInt8.le_iff_toNat_le, UInt8.reduceToNat]
      at lower upper ⊢
    omega
  · subst equal
    decide

/-- The first pass keeps typed bytes. -/
theorem scanned_typed {bytes : ByteString} (typed : Typed bytes) : scanned bytes = bytes := by
  have whole : (bytes.takeWhile fun c => c ≠ 0) = bytes := by
    rw [List.takeWhile_eq_self_iff]
    exact fun c member => decide_eq_true (kept_of_typed typed member).1
  rw [scanned, whole, List.filter_eq_self]
  exact fun c member => decide_eq_true (kept_of_typed typed member).2

theorem isBreak_typed {bytes : ByteString} (typed : Typed bytes) : isBreak bytes = false := by
  cases bytes with
  | nil => decide
  | cons c rest =>
      have small : c ≠ 0xff ∧ c ≠ 4 := by
        rcases kept_of_typed typed List.mem_cons_self with ⟨-, lower, upper⟩
        constructor
        all_goals
          intro same
          subst same
          revert lower upper
          decide
      simp [isBreak, small.1, small.2]

theorem textOf_typed {arrival : Arrival} (typed : Typed arrival.bytes) :
    textOf arrival = arrival.bytes := by
  cases arrival with
  | none => rfl
  | some read =>
      have whole : isBreak read.bytes = false := isBreak_typed typed
      rw [textOf, if_neg (by simp [whole])]
      exact scanned_typed typed

/-- Of typed bytes the second pass removes the newlines and nothing else. -/
theorem sanitize_typed {bytes : ByteString} (typed : Typed bytes) :
    sanitize bytes = bytes.filter fun c => c ≠ newline := by
  apply List.filter_congr
  intro c member
  rcases typed c member with visible | equal
  · have different : c ≠ newline := by
      intro same
      subst same
      revert visible
      decide
    simp [visible, different]
  · subst equal
    decide

end CommStatic

theorem Typed.append {first second : ByteString} (left : Typed first) (right : Typed second) :
    Typed (first ++ second) := by
  intro c member
  rcases List.mem_append.mp member with inFirst | inSecond
  · exact left c inFirst
  · exact right c inSecond

theorem length_of_quitsOn {line : ByteString} (quits : ConnectionActor.quitsOn line = true) :
    line.length = 4 := by
  simp only [ConnectionActor.quitsOn, Bool.or_eq_true, decide_eq_true_eq] at quits
  rcases quits with rfl | rfl
  · decide
  · decide

theorem quitsOn_nil : ConnectionActor.quitsOn [] = false := by decide

/-! ## Lines and reads -/

/-- A byte list of newlines only, as the filter sees it. -/
theorem filter_newline_eq_nil {bytes : ByteString} :
    (bytes.filter fun c => c ≠ newline) = [] ↔ ∀ c ∈ bytes, c = newline := by
  simp [List.filter_eq_nil_iff]

theorem filter_newline_of_not_mem {bytes : ByteString} (unterminated : newline ∉ bytes) :
    (bytes.filter fun c => c ≠ newline) = bytes := by
  apply List.filter_eq_self.mpr
  intro c member
  have different : c ≠ newline := fun equal => unterminated (equal ▸ member)
  simp [different]

/-- A read with a newline, cut at the first one: the line it closes, what it
carries behind, and the line the handler makes of both. -/
theorem terminated_read_parts {carry bytes : ByteString} (clean : newline ∉ carry)
    (terminated : newline ∈ bytes) :
    let body := bytes.takeWhile fun c => c ≠ newline
    let behind := (bytes.dropWhile fun c => c ≠ newline).tail
    bytes = body ++ newline :: behind ∧ newline ∉ body ∧
      ((carry ++ bytes).filter fun c => c ≠ newline) =
        (carry ++ body) ++ behind.filter fun c => c ≠ newline := by
  intro body behind
  rcases exists_split_at_terminator newline terminated with ⟨fresh, split⟩
  refine ⟨split, fresh, ?_⟩
  have filtered := congrArg (List.filter fun c => c ≠ newline) split
  rw [List.filter_append, filter_newline_of_not_mem clean, filtered, List.filter_append,
    filter_newline_of_not_mem fresh]
  simp [body, behind]

theorem linesToPass_of_unterminated (carry : ByteString) {bytes : ByteString}
    (unterminated : newline ∉ bytes) : linesToPass carry bytes = [] := by
  rw [linesToPass, (lines_of_unterminated newline carry unterminated).1, List.takeWhile_nil]

theorem linesToPass_of_terminated (carry : ByteString) {body : ByteString}
    (fresh : newline ∉ body) (behind : ByteString) :
    linesToPass carry (body ++ newline :: behind) =
      if ConnectionActor.quitsOn (carry ++ body) then []
      else (carry ++ body) :: linesToPass [] behind := by
  have parts := lines_of_terminated newline carry fresh behind
  simp only [linesToPass, parts.1, List.takeWhile_cons]
  cases ConnectionActor.quitsOn (carry ++ body) <;> simp

/-- Newlines only are empty lines. -/
theorem linesToPass_of_newlines (count : Nat) :
    linesToPass [] (List.replicate count newline) = List.replicate count [] := by
  rw [linesToPass, (lines_of_terminators newline count).1, List.takeWhile_eq_self_iff]
  intro line member
  rw [(List.mem_replicate.mp member).2, quitsOn_nil]
  rfl

theorem not_quits_iff {stream : ByteString} :
    ¬ Quits stream ↔ ∀ line ∈ linesFrom newline [] stream,
      ConnectionActor.quitsOn line = false := by
  simp [Quits]

theorem Quits.append {stream : ByteString} (quits : Quits stream) (bytes : ByteString) :
    Quits (stream ++ bytes) := by
  rcases quits with ⟨line, member, leaves⟩
  refine ⟨line, ?_, leaves⟩
  rw [linesFrom_append]
  exact List.mem_append_left _ member

/-- Behind a line that quits nothing is to be passed on. -/
theorem linesToPass_of_quits {stream : ByteString} (quits : Quits stream) (bytes : ByteString) :
    linesToPass [] (stream ++ bytes) = linesToPass [] stream := by
  rcases quits with ⟨line, member, leaves⟩
  have stops : (linesToPass [] stream).length ≠ (linesFrom newline [] stream).length := by
    intro same
    have all := List.takeWhile_eq_self_iff.mp
      ((List.takeWhile_prefix _).eq_of_length same) line member
    simp [leaves] at all
  rw [linesToPass, linesFrom_append, List.takeWhile_append]
  exact if_neg stops

theorem linesToPass_of_stays {stream : ByteString} (stays : ¬ Quits stream)
    (bytes : ByteString) :
    linesToPass [] (stream ++ bytes) =
      linesToPass [] stream ++ linesToPass (tailFrom newline [] stream) bytes := by
  have all : ∀ line ∈ linesFrom newline [] stream, (!ConnectionActor.quitsOn line) = true := by
    intro line member
    rw [not_quits_iff.mp stays line member]
    rfl
  rw [linesToPass, linesFrom_append, List.takeWhile_append_of_pos all, linesToPass,
    List.takeWhile_eq_self_iff.mpr all]
  rfl

/-! ## One read -/

/-- A line that quits is not passed on, unless something behind it makes it another line. -/
theorem passedOn_of_quits {line : ByteString} (quits : ConnectionActor.quitsOn line = true)
    (behind : ByteString) :
    passedOn [line ++ behind.filter fun c => c ≠ newline] = [] ↔ ∀ c ∈ behind, c = newline := by
  rw [← filter_newline_eq_nil]
  constructor
  · intro nothing
    have alsoQuits : ConnectionActor.quitsOn (line ++ behind.filter fun c => c ≠ newline) =
        true := by
      simpa [passedOn] using nothing
    have whole := length_of_quitsOn alsoQuits
    have first := length_of_quitsOn quits
    rw [List.length_append, first] at whole
    exact List.length_eq_zero_iff.mp (by omega)
  · intro deleted
    rw [deleted, List.append_nil]
    simp [passedOn, quits]

/-- A line that stays is passed on as it is, and alone, only when nothing is behind it. -/
theorem passedOn_of_stays {line : ByteString} (stays : ConnectionActor.quitsOn line = false)
    (behind : ByteString) :
    passedOn [line ++ behind.filter fun c => c ≠ newline] = line :: linesToPass [] behind ↔
      behind = [] := by
  constructor
  · intro agree
    rw [passedOn, List.filter_singleton] at agree
    cases quits : ConnectionActor.quitsOn (line ++ behind.filter fun c => c ≠ newline) with
    | true =>
        rw [quits] at agree
        cases agree
    | false =>
        rw [quits] at agree
        simp only [Bool.not_false, cond_true, List.cons.injEq] at agree
        have newlines : ∀ c ∈ behind, c = newline :=
          filter_newline_eq_nil.mp (List.append_right_eq_self.mp agree.1)
        have run := List.eq_replicate_of_mem newlines
        have count := agree.2
        rw [run, linesToPass_of_newlines, eq_comm, List.replicate_eq_nil_iff] at count
        exact List.length_eq_zero_iff.mp count
  · rintro rfl
    rw [linesToPass_of_unterminated [] List.not_mem_nil]
    simp [passedOn, stays]

section Read

variable {stream pending bytes : ByteString} {passed : List ByteString}

/-- Without a newline the read prolongs the pending line. -/
theorem Frames.unterminated (frames : Frames stream passed pending)
    (unterminated : newline ∉ bytes) : Frames (stream ++ bytes) passed (pending ++ bytes) := by
  rcases frames with ⟨lines, rest⟩
  by_cases quits : Quits stream
  · refine ⟨?_, fun stays => absurd (quits.append bytes) stays⟩
    rw [linesToPass_of_quits quits]
    exact lines
  · have parts := lines_of_unterminated newline (tailFrom newline [] stream) unterminated
    refine ⟨?_, fun _ => ?_⟩
    · rw [linesToPass_of_stays quits, linesToPass_of_unterminated _ unterminated,
        List.append_nil, lines]
    · rw [tailFrom_append, parts.2, rest quits]

/-- With a newline everything pending is one line, which is right only when the read is cut
at its line end. -/
theorem Frames.terminated_iff (frames : Frames stream passed pending)
    (clean : newline ∉ pending) (typed : Typed (pending ++ bytes))
    (terminated : newline ∈ bytes) :
    Frames (stream ++ bytes) (passed ++ passedOn [sanitize (pending ++ bytes)]) [] ↔
      CutAtLineEnd stream pending bytes := by
  rcases frames with ⟨lines, rest⟩
  rw [CutAtLineEnd]
  simp only [terminated, forall_const]
  by_cases quits : Quits stream
  · have persists := quits.append bytes
    rw [if_pos quits, Frames, linesToPass_of_quits quits, ← lines, List.append_right_eq_self]
    simp [persists, passedOn]
  · have tail := rest quits
    rcases terminated_read_parts clean terminated with ⟨split, fresh, line⟩
    generalize (bytes.takeWhile fun c => c ≠ newline) = body at *
    generalize (bytes.dropWhile fun c => c ≠ newline).tail = behind at *
    have lead := linesToPass_of_terminated pending fresh behind
    have parts := lines_of_terminated newline pending fresh behind
    rw [if_neg quits, Frames, linesToPass_of_stays quits, ← lines, ← tail,
      List.append_cancel_left_eq, sanitize_typed typed, line, split, lead]
    cases leaves : ConnectionActor.quitsOn (pending ++ body) with
    | true =>
        have ends : Quits (stream ++ (body ++ newline :: behind)) := by
          refine ⟨pending ++ body, ?_, leaves⟩
          rw [linesFrom_append, ← tail, parts.1]
          exact List.mem_append_right _ List.mem_cons_self
        simp only [ends, not_true, false_implies, and_true, if_true]
        exact passedOn_of_quits leaves behind
    | false =>
        simp only [Bool.false_eq_true, if_false]
        rw [passedOn_of_stays leaves]
        refine and_iff_left_of_imp ?_
        rintro rfl -
        rw [tailFrom_append, ← tail, parts.2]
        rfl

end Read

/-! ## Runs -/

/-- What is pending has no newline in it. -/
structure Pending (run : PollRun) : Prop where
  typed : Typed run.currentInput
  clean : newline ∉ run.currentInput

variable {run next : PollRun} {event : ConnectionEvent}

theorem Pending.step (pending : Pending run) (types : TypesInput run event)
    (taken : PollRun.step run event = some next) : Pending next := by
  rcases PollRun.step_gathers taken with ⟨-, input, -⟩
  have text := CommStatic.textOf_typed types
  simp only [gathered, text] at input
  by_cases terminated : newline ∈ (PollRun.finds run.1 event).bytes
  · rw [if_neg (not_not.mpr terminated)] at input
    exact ⟨by simp [input, Typed], by simp [input]⟩
  · rw [if_pos terminated] at input
    refine ⟨input ▸ pending.typed.append types, ?_⟩
    rw [input, List.mem_append, not_or]
    exact ⟨pending.clean, terminated⟩

theorem framesLines_step_iff (pending : Pending run) (frames : FramesLines run)
    (types : TypesInput run event) (taken : PollRun.step run event = some next) :
    FramesLines next ↔ CutsAtLineEnd run event := by
  rcases PollRun.step_gathers taken with ⟨found, input, sent⟩
  have text := CommStatic.textOf_typed types
  have stream : next.stream = run.stream ++ (PollRun.finds run.1 event).bytes := by
    simp [PollRun.stream, found, streamOf]
  simp only [gathered, text] at input sent
  rw [FramesLines, stream, input, sent, CutsAtLineEnd]
  by_cases terminated : newline ∈ (PollRun.finds run.1 event).bytes
  · simp only [terminated, not_true, if_false]
    exact frames.terminated_iff pending.clean (pending.typed.append types) terminated
  · have cut : CutAtLineEnd run.stream run.currentInput (PollRun.finds run.1 event).bytes :=
      fun member => absurd member terminated
    have prolonged : Frames _ _ _ := frames.unterminated terminated
    simpa [terminated, passedOn, cut] using prolonged

/-- In every run of a client that types, the lines of the stream that has been
read are passed on, in every state, if and only if every read is cut at its line end. -/
theorem framesLines_iff_cutsAtLineEnds (id : Nat) (comm : CommStatic) (welcome : ByteString)
    (answers : List (Option Nat)) (events : List ConnectionEvent)
    (types : PollRun.step.Guarded TypesInput (.spawn id comm welcome answers) events) :
    PollRun.step.Throughout FramesLines (.spawn id comm welcome answers) events ↔
      PollRun.step.Guarded CutsAtLineEnd (.spawn id comm welcome answers) events := by
  have blank : Pending (.spawn id comm welcome answers) :=
    ⟨fun _ member => absurd member List.not_mem_nil, List.not_mem_nil⟩
  have start : FramesLines (.spawn id comm welcome answers) := ⟨rfl, fun _ => rfl⟩
  refine StepFunction.throughout_iff_guarded _ ?_ ?_ blank start types
  · exact fun _ _ _ pending types taken => pending.step types taken
  · exact fun _ _ _ pending frames types taken => framesLines_step_iff pending frames types taken

/-- A prompt is handled. -/
def prompted : List ConnectionEvent := [
  .arrive .command (.toUserPrompt (text "pmud")),
  .handle .command [some 6] (-1) none]

/-- A queued poll reads these bytes. -/
def polled (bytes : ByteString) : ConnectionEvent :=
  .handle .connection [] bytes.length (some (.of bytes))

/-- A queued poll finds nothing. -/
def idlePoll : ConnectionEvent := .handle .connection [] (-1) none

/-- One line in two reads, with an idle poll between them. -/
def splitInTwo : List ConnectionEvent :=
  prompted ++ [polled (text "he"), idlePoll, polled (text "lp\n")]

set_option maxRecDepth 2000 in
theorem framesLines_of_split_line :
    PollRun.step.Throughout FramesLines (.spawn 7 ⟨4, by decide⟩ [] []) splitInTwo :=
  (framesLines_iff_cutsAtLineEnds 7 ⟨4, by decide⟩ [] [] splitInTwo (by decide)).mpr
    (by decide)

/-- Two lines in one read arrive as one payload, `lookhelp`. -/
def joinedLines : List ConnectionEvent := prompted ++ [polled (text "look\nhelp\n")]

/-- The second prompt leaves two polls queued. One finds the line that quits, and the other
one, in front of the goodbye, a further line. -/
def lineBehindQuit : List ConnectionEvent :=
  prompted ++ [polled (text "nick\n")] ++ prompted ++
    [polled (text "quit\n"), polled (text "look\n")]

set_option maxRecDepth 2000 in
/-- The payloads are `lookhelp`, and `nick` with `look`. -/
theorem not_framesLines_of_joined_lines :
    (PollRun.step.Guarded TypesInput (.spawn 7 ⟨4, by decide⟩ [] []) joinedLines ∧
        ¬ PollRun.step.Throughout FramesLines (.spawn 7 ⟨4, by decide⟩ [] []) joinedLines) ∧
      PollRun.step.Guarded TypesInput (.spawn 7 ⟨4, by decide⟩ [] []) lineBehindQuit ∧
        ¬ PollRun.step.Throughout FramesLines (.spawn 7 ⟨4, by decide⟩ [] []) lineBehindQuit := by
  decide

end Pmud.Net
