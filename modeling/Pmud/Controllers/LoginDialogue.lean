import Pmud.Controllers.LoginHistory

/-! # What the user sees of a login

The prompt shown last, the reply given last to a request for a password, and
whether a mismatch has been reported. The controller keeps none of these.
-/

namespace Pmud.Controllers

open Pmud.Foundation UserClient

def enterPassword : ByteString := text "enter password"

def confirmPassword : ByteString := text "confirm password"

/-- The prompts among the messages sent. -/
def prompts (sends : Sends) : List ByteString :=
  sends.filterMap fun
    | (_, .toUserPrompt prompt) => some prompt
    | _ => none

def reportsMismatch (sends : Sends) : Bool :=
  (.command, .toUserEmit (text "Passwords don't match, please try again.")) ∈ sends

structure Dialogue where
  shown : Option ByteString
  chosen : Option ByteString
  mismatched : Bool

namespace Dialogue

/-- The dialogue `LoginControllerStart` opens. -/
def start : Dialogue where
  shown := (prompts LoginController.loginControllerStart).getLast?
  chosen := none
  mismatched := false

/-- The reply counts as the chosen password when one was asked for. -/
def reply (dialogue : Dialogue) (input : ByteString) : Option ByteString :=
  if dialogue.shown = some enterPassword then some input else dialogue.chosen

/-- An input is the reply to the prompt shown last. -/
def hear (dialogue : Dialogue) (input : ByteString) (answer : Sends) : Dialogue where
  shown := (prompts answer).getLast?.or dialogue.shown
  chosen := dialogue.reply input
  mismatched := dialogue.mismatched || reportsMismatch answer

end Dialogue

/-- The controller together with what the user has seen of it. -/
def dialogueMachine (sha256 : ByteString → ByteString) :
    Machine (LoginController × Dialogue) LoginInput (ActorId × Message) := fun state given =>
  let (controller, answer) := loginMachine sha256 state.1 given
  ((controller, state.2.hear given.input answer), answer)

/-- The dialogue once all inputs have been answered. -/
def dialogueAfter (sha256 : ByteString → ByteString) (inputs : List LoginInput) : Dialogue :=
  ((dialogueMachine sha256).after (.create, .start) inputs).2

section Observer

variable (sha256 : ByteString → ByteString)

/-- Looking on does not change what is sent. -/
theorem dialogueMachine_outputs (state : LoginController × Dialogue)
    (inputs : List LoginInput) :
    (dialogueMachine sha256).outputs state inputs =
      (loginMachine sha256).outputs state.1 inputs := by
  induction inputs generalizing state with
  | nil => rfl
  | cons given rest induction =>
      rw [Machine.outputs_cons, Machine.outputs_cons, induction]
      rfl

theorem dialogueMachine_after (state : LoginController × Dialogue)
    (inputs : List LoginInput) :
    ((dialogueMachine sha256).after state inputs).1 =
      (loginMachine sha256).after state.1 inputs := by
  induction inputs generalizing state with
  | nil => rfl
  | cons given rest induction =>
      rw [Machine.after_cons, Machine.after_cons, induction]
      rfl

end Observer

/-! ## The dialogue behind each answer -/

section Steps

variable (sha256 : ByteString → ByteString) (given : LoginInput) (dialogue : Dialogue)

theorem dialogue_unnamed :
    dialogueMachine sha256 (.create, dialogue) given =
      ((⟨given.input, []⟩,
        ⟨some enterPassword, dialogue.reply given.input, dialogue.mismatched⟩),
        namingAnswer) := by
  have quiet : reportsMismatch namingAnswer = false := by decide
  simp only [dialogueMachine, login_unnamed, Dialogue.hear, quiet, Bool.or_false]
  rfl

theorem dialogue_named {username : ByteString} (named : username ≠ []) :
    dialogueMachine sha256 (⟨username, []⟩, dialogue) given =
      ((⟨username, given.input⟩,
        ⟨some confirmPassword, dialogue.reply given.input, dialogue.mismatched⟩),
        choosingAnswer) := by
  have quiet : reportsMismatch choosingAnswer = false := by decide
  simp only [dialogueMachine, login_named sha256 given named, Dialogue.hear, quiet,
    Bool.or_false]
  rfl

theorem dialogue_mismatch {username password : ByteString} (named : username ≠ [])
    (chosen : password ≠ []) (differs : given.input ≠ password) :
    dialogueMachine sha256 (⟨username, password⟩, dialogue) given =
      ((⟨username, password⟩,
        ⟨some enterPassword, dialogue.reply given.input, true⟩), mismatchAnswer) := by
  have loud : reportsMismatch mismatchAnswer = true := by decide
  simp only [dialogueMachine, login_mismatch sha256 given named chosen differs,
    Dialogue.hear, loud, Bool.or_true]
  rfl

theorem dialogue_match {username password : ByteString} (named : username ≠ [])
    (chosen : password ≠ []) (equal : given.input = password) :
    (dialogueMachine sha256 (⟨username, password⟩, dialogue) given).2 =
      completionAnswer username (credentialOf sha256 password given.draws) := by
  simp only [dialogueMachine, login_match sha256 given named chosen equal]

end Steps

end Pmud.Controllers
