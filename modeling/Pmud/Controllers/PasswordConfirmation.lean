import Mathlib.Data.List.Chain
import Pmud.Controllers.LoginDialogue

/-! # Confirmation of the password

The rule that the prompts promise: the account is created when "confirm
password" is answered by the reply to the "enter password" before it. The
controller compares with the first password it was ever given, whatever it
prompts for afterwards.
-/

namespace Pmud.Controllers

open Pmud.Foundation UserClient

section Rule

variable (sha256 : ByteString → ByteString)

/-- What the prompts promise of one input and of the one behind it. -/
structure ConfirmationRule (state : LoginController × Dialogue) (given : LoginInput)
    (next : Option LoginInput) : Prop where
  completes : accounts (dialogueMachine sha256 state given).2 ≠ [] ↔
    state.2.shown = some confirmPassword ∧ given.input ≠ [] ∧
      state.2.chosen = some given.input
  credential : ∀ account ∈ accounts (dialogueMachine sha256 state given).2,
    account.2 = credentialOf sha256 given.input given.draws
  /-- After a mismatch a password that is entered and confirmed completes. -/
  retry : state.2.mismatched = true → state.2.shown = some enterPassword →
    given.input ≠ [] → ∀ confirming ∈ next, confirming.input = given.input →
      accounts (dialogueMachine sha256 state given).2 = [] ∧
        accounts (dialogueMachine sha256 (dialogueMachine sha256 state given).1
          confirming).2 ≠ []

/-- The rule holds at every input up to the first account. -/
def ConfirmsFrom (state : LoginController × Dialogue) (inputs : List LoginInput) : Prop :=
  ∀ before given rest, inputs = before ++ given :: rest →
    accounts ((dialogueMachine sha256).outputs state before) = [] →
      ConfirmationRule sha256 ((dialogueMachine sha256).after state before) given rest.head?

theorem confirmsFrom_nil (state : LoginController × Dialogue) :
    ConfirmsFrom sha256 state [] := by
  intro before given rest equal
  simp at equal

theorem confirmsFrom_cons (state : LoginController × Dialogue) (given : LoginInput)
    (rest : List LoginInput) :
    ConfirmsFrom sha256 state (given :: rest) ↔
      ConfirmationRule sha256 state given rest.head? ∧
        (accounts (dialogueMachine sha256 state given).2 = [] →
          ConfirmsFrom sha256 (dialogueMachine sha256 state given).1 rest) := by
  constructor
  · intro confirms
    refine ⟨confirms [] given rest rfl rfl, fun uncreated before later behind split quiet => ?_⟩
    apply confirms (given :: before) later behind (by rw [split, List.cons_append])
    rw [Machine.outputs_cons, accounts_append, uncreated, quiet, List.append_nil]
  · intro holds
    rcases holds with ⟨now, later⟩
    intro before next behind split quiet
    cases before with
    | nil =>
        simp only [List.nil_append, List.cons.injEq] at split
        rcases split with ⟨rfl, rfl⟩
        exact now
    | cons head before =>
        simp only [List.cons_append, List.cons.injEq] at split
        rcases split with ⟨rfl, split⟩
        rw [Machine.outputs_cons, accounts_append, List.append_eq_nil_iff] at quiet
        exact later quiet.1 before next behind split quiet.2

end Rule

/-! ## The inputs that keep to the rule -/

/-- Two equal replies in a row are empty. -/
def NoRepeat (replies : List ByteString) : Prop :=
  replies.IsChain fun first second => second = first → first = []

/-- Behind the user name: either the password is confirmed by the very next
input, or none of the replies confirms it, nor, after the first, each other.
`direct` says that the prompt shown is "enter password". -/
def ConfirmsDirectlyOrNever (direct : Bool) (inputs : List ByteString) : Prop :=
  match inputs.dropWhile (· = []) with
  | [] => True
  | password :: replies =>
      (direct = true ∧ inputs.head? = some password ∧ replies.head? = some password) ∨
        (password ∉ replies ∧ NoRepeat replies.tail)

/-- The condition on a whole history, whose first input that is not empty
becomes the user name. -/
def DirectConfirmation (inputs : List ByteString) : Prop :=
  ConfirmsDirectlyOrNever true (inputs.dropWhile (· = [])).tail

theorem enterPassword_ne_confirmPassword : enterPassword ≠ confirmPassword := by decide

/-- Where an input creates no account and is not followed by a retry, the rule
only says that it was no confirmation. -/
theorem confirmationRule_of_uncreated (sha256 : ByteString → ByteString)
    {state : LoginController × Dialogue} {given : LoginInput} (next : Option LoginInput)
    (uncreated : accounts (dialogueMachine sha256 state given).2 = [])
    (fresh : state.2.mismatched = false) :
    ConfirmationRule sha256 state given next ↔
      ¬ (state.2.shown = some confirmPassword ∧ given.input ≠ [] ∧
        state.2.chosen = some given.input) := by
  constructor
  · intro rule confirms
    exact rule.completes.mpr confirms uncreated
  · intro other
    refine ⟨by simp [uncreated, other], by simp [uncreated], ?_⟩
    intro mismatched
    simp [fresh] at mismatched

/-- An empty reply takes the place of a password that would have to be confirmed
directly. -/
theorem confirmsDirectlyOrNever_blank (direct : Bool) (rest : List ByteString) :
    ConfirmsDirectlyOrNever direct ([] :: rest) ↔ ConfirmsDirectlyOrNever false rest := by
  have filled := List.head?_dropWhile_not (fun input : ByteString => decide (input = [])) rest
  simp only [ConfirmsDirectlyOrNever, List.dropWhile_cons_of_pos, decide_true]
  cases shape : rest.dropWhile (· = []) with
  | nil => rfl
  | cons password replies =>
      rw [shape] at filled
      have other : password ≠ [] := by simpa using filled
      simp [other.symm]

section Phases

variable (sha256 : ByteString → ByteString) {username password : ByteString}
  (named : username ≠ []) (chosen : password ≠ [])
include named chosen

/-- After a mismatch the only prompt is "enter password", so the rule wants the
password never to be repeated, and every repeated reply to complete. -/
theorem confirmationRule_of_mismatched {dialogue : Dialogue}
    (shown : dialogue.shown = some enterPassword) (mismatched : dialogue.mismatched = true)
    (given : LoginInput) (next : Option LoginInput) :
    ConfirmationRule sha256 (⟨username, password⟩, dialogue) given next ↔
      given.input ≠ password ∧
        ∀ confirming ∈ next, confirming.input = given.input → given.input = [] := by
  constructor
  · intro rule
    have differs : given.input ≠ password := by
      intro equal
      have created : accounts (dialogueMachine sha256 (⟨username, password⟩, dialogue)
          given).2 ≠ [] := by
        rw [dialogue_match sha256 given dialogue named chosen equal]
        simp
      have asked := (rule.completes.mp created).1
      rw [shown, Option.some.injEq] at asked
      exact enterPassword_ne_confirmPassword asked
    refine ⟨differs, fun confirming member equal => ?_⟩
    by_contra filled
    have completes := (rule.retry mismatched shown filled confirming member equal).2
    rw [dialogue_mismatch sha256 given dialogue named chosen differs,
      dialogue_mismatch sha256 confirming _ named chosen (equal ▸ differs)] at completes
    exact completes rfl
  · intro holds
    rcases holds with ⟨differs, unrepeated⟩
    have uncreated : accounts (dialogueMachine sha256 (⟨username, password⟩, dialogue)
        given).2 = [] := by
      rw [dialogue_mismatch sha256 given dialogue named chosen differs]
      rfl
    refine ⟨?_, by simp [uncreated], ?_⟩
    · simp [uncreated, shown, enterPassword_ne_confirmPassword]
    · intro _ _ filled confirming member equal
      exact absurd (unrepeated confirming member equal) filled

theorem confirmsFrom_of_mismatched {dialogue : Dialogue}
    (shown : dialogue.shown = some enterPassword) (mismatched : dialogue.mismatched = true)
    (replies : List LoginInput) :
    ConfirmsFrom sha256 (⟨username, password⟩, dialogue) replies ↔
      password ∉ replies.map LoginInput.input ∧ NoRepeat (replies.map LoginInput.input) := by
  induction replies generalizing dialogue with
  | nil => simp [confirmsFrom_nil, NoRepeat]
  | cons given rest induction =>
      rw [confirmsFrom_cons, confirmationRule_of_mismatched sha256 named chosen shown mismatched]
      by_cases differs : given.input = password
      · simp [differs]
      · have step := dialogue_mismatch sha256 given dialogue named chosen differs
        rw [step, induction rfl rfl]
        simp only [accounts_mismatchAnswer, true_imp_iff, NoRepeat, List.map_cons,
          List.isChain_cons, List.mem_cons, not_or]
        have heads : (∀ confirming ∈ rest.head?, confirming.input = given.input →
              given.input = []) ↔
            ∀ next ∈ (rest.map LoginInput.input).head?, next = given.input →
              given.input = [] := by
          simp
        rw [heads]
        constructor
        · intro holds
          rcases holds with ⟨⟨-, unrepeated⟩, fresh, chain⟩
          exact ⟨⟨Ne.symm differs, fresh⟩, unrepeated, chain⟩
        · intro holds
          rcases holds with ⟨⟨-, fresh⟩, unrepeated, chain⟩
          exact ⟨⟨differs, unrepeated⟩, fresh, chain⟩

/-- The first reply to the request to confirm. `asked` is what the user last
gave in reply to "enter password": the password, or nothing when empty inputs
came between. -/
theorem confirmsFrom_of_chosen (dialogue : Dialogue)
    (shown : dialogue.shown = some confirmPassword) (fresh : dialogue.mismatched = false)
    {direct : Bool} (asked : dialogue.chosen = some (if direct then password else []))
    (replies : List LoginInput) :
    ConfirmsFrom sha256 (⟨username, password⟩, dialogue) replies ↔
      (direct = true ∧ (replies.map LoginInput.input).head? = some password) ∨
        (password ∉ replies.map LoginInput.input ∧
          NoRepeat (replies.map LoginInput.input).tail) := by
  cases replies with
  | nil => simp [confirmsFrom_nil, NoRepeat]
  | cons given rest =>
      rw [confirmsFrom_cons]
      by_cases equal : given.input = password
      · have created : accounts (dialogueMachine sha256 (⟨username, password⟩, dialogue)
            given).2 = [(username, credentialOf sha256 password given.draws)] := by
          rw [dialogue_match sha256 given dialogue named chosen equal]
          rfl
        have rule : ConfirmationRule sha256 (⟨username, password⟩, dialogue) given
            rest.head? ↔ direct = true := by
          constructor
          · intro holds
            have kept := (holds.completes.mp (by simp [created])).2.2
            rw [asked, equal, Option.some.injEq] at kept
            by_contra indirect
            rw [if_neg indirect] at kept
            exact chosen kept.symm
          · intro same
            subst same
            refine ⟨?_, ?_, ?_⟩
            · simp [created, shown, asked, equal, chosen]
            · simp [created, equal]
            · simp [fresh]
        rw [rule]
        simp [created, equal]
      · have step := dialogue_mismatch sha256 given dialogue named chosen equal
        have uncreated : accounts (dialogueMachine sha256 (⟨username, password⟩, dialogue)
            given).2 = [] := by
          rw [step]
          rfl
        have unasked : ¬ (dialogue.shown = some confirmPassword ∧ given.input ≠ [] ∧
            dialogue.chosen = some given.input) := by
          intro holds
          rcases holds with ⟨-, filled, same⟩
          rw [asked, Option.some.injEq] at same
          split at same
          · exact equal same.symm
          · exact filled same.symm
        rw [confirmationRule_of_uncreated sha256 _ uncreated fresh, step,
          confirmsFrom_of_mismatched sha256 named chosen rfl rfl]
        simp [unasked, equal, Ne.symm equal]

end Phases

section Opening

variable (sha256 : ByteString → ByteString)

/-- The last prompt before a password is chosen: the first one, or one that an
empty reply has brought up. -/
def AwaitsPassword (direct : Bool) (dialogue : Dialogue) : Prop :=
  match direct with
  | true => dialogue.shown = some enterPassword
  | false => dialogue.shown = some confirmPassword ∧ dialogue.chosen = some []

/-- Behind the user name, until a password is chosen. -/
theorem confirmsFrom_of_named {username : ByteString} (named : username ≠ [])
    (dialogue : Dialogue) (fresh : dialogue.mismatched = false) {direct : Bool}
    (prompted : AwaitsPassword direct dialogue) (inputs : List LoginInput) :
    ConfirmsFrom sha256 (⟨username, []⟩, dialogue) inputs ↔
      ConfirmsDirectlyOrNever direct (inputs.map LoginInput.input) := by
  induction inputs generalizing dialogue direct with
  | nil => simp [confirmsFrom_nil, ConfirmsDirectlyOrNever]
  | cons given rest induction =>
      have step := dialogue_named sha256 given dialogue named
      have uncreated :
          accounts (dialogueMachine sha256 (⟨username, []⟩, dialogue) given).2 = [] := by
        rw [step]
        rfl
      have unasked : ¬ (dialogue.shown = some confirmPassword ∧ given.input ≠ [] ∧
          dialogue.chosen = some given.input) := by
        intro holds
        rcases holds with ⟨shown, filled, same⟩
        cases direct with
        | true =>
            have first : dialogue.shown = some enterPassword := prompted
            rw [shown, Option.some.injEq] at first
            exact enterPassword_ne_confirmPassword first.symm
        | false =>
            have empty : dialogue.chosen = some [] := prompted.2
            rw [same, Option.some.injEq] at empty
            exact filled empty
      rw [confirmsFrom_cons, confirmationRule_of_uncreated sha256 _ uncreated fresh, step]
      simp only [unasked, not_false_eq_true, accounts_choosingAnswer, true_imp_iff, true_and]
      have reply : dialogue.reply given.input =
          some (if direct then given.input else []) := by
        cases direct with
        | true =>
            have shown : dialogue.shown = some enterPassword := prompted
            simp [Dialogue.reply, shown]
        | false =>
            have other : ¬ dialogue.shown = some enterPassword := by
              rw [prompted.1, Option.some.injEq]
              exact fun equal => enterPassword_ne_confirmPassword equal.symm
            simpa [Dialogue.reply, other] using prompted.2
      rw [reply]
      by_cases blank : given.input = []
      · have prompted : AwaitsPassword false
            ⟨some confirmPassword, some [], dialogue.mismatched⟩ := ⟨rfl, rfl⟩
        rw [List.map_cons, blank, confirmsDirectlyOrNever_blank, ite_self]
        exact induction ⟨some confirmPassword, some [], dialogue.mismatched⟩ fresh prompted
      · rw [confirmsFrom_of_chosen sha256 named blank ⟨some confirmPassword,
          some (if direct then given.input else []), dialogue.mismatched⟩ rfl fresh rfl rest]
        simp [ConfirmsDirectlyOrNever, blank]

/-- Before the user name. -/
theorem confirmsFrom_of_unnamed (dialogue : Dialogue) (fresh : dialogue.mismatched = false)
    (unasked : dialogue.shown ≠ some confirmPassword) (inputs : List LoginInput) :
    ConfirmsFrom sha256 (.create, dialogue) inputs ↔
      DirectConfirmation (inputs.map LoginInput.input) := by
  induction inputs generalizing dialogue with
  | nil => simp [confirmsFrom_nil, DirectConfirmation, ConfirmsDirectlyOrNever]
  | cons given rest induction =>
      have step := dialogue_unnamed sha256 given dialogue
      have uncreated : accounts (dialogueMachine sha256 (.create, dialogue) given).2 = [] := by
        rw [step]
        rfl
      rw [confirmsFrom_cons, confirmationRule_of_uncreated sha256 _ uncreated fresh, step]
      simp only [unasked, false_and, not_false_eq_true, accounts_namingAnswer, true_imp_iff,
        true_and]
      have other : some enterPassword ≠ some confirmPassword := by
        rw [ne_eq, Option.some.injEq]
        exact enterPassword_ne_confirmPassword
      by_cases blank : given.input = []
      · rw [blank]
        have skipped : DirectConfirmation ([] :: rest.map LoginInput.input) ↔
            DirectConfirmation (rest.map LoginInput.input) := by
          simp [DirectConfirmation]
        rw [List.map_cons, blank, skipped]
        exact induction ⟨some enterPassword, dialogue.reply [], dialogue.mismatched⟩ fresh other
      · have prompted : AwaitsPassword true
            ⟨some enterPassword, dialogue.reply given.input, dialogue.mismatched⟩ := rfl
        rw [confirmsFrom_of_named sha256 blank ⟨some enterPassword,
          dialogue.reply given.input, dialogue.mismatched⟩ fresh prompted rest]
        simp [DirectConfirmation, blank]

/-- Account creation follows the prompts, and a mismatch can be repaired, exactly
when the first password is confirmed directly or nothing is ever confirmed. -/
theorem confirmsFrom_iff_directConfirmation (inputs : List LoginInput) :
    ConfirmsFrom sha256 (.create, .start) inputs ↔
      DirectConfirmation (inputs.map LoginInput.input) :=
  confirmsFrom_of_unnamed sha256 .start rfl (by decide) inputs

end Opening

/-- A mismatch, and then the first password in reply to "enter password". -/
def firstPasswordAgain : List LoginInput :=
  [text "nick", text "a", text "b", text "a"].map fun input => ⟨input, Security.zeroDraws⟩

theorem not_confirmsFrom_of_firstPasswordAgain :
    ¬ ConfirmsFrom Security.sampleSha256 (.create, .start) firstPasswordAgain := by
  intro confirms
  have rule := confirms (firstPasswordAgain.take 3) ⟨text "a", Security.zeroDraws⟩ [] rfl
    (by decide)
  have created : accounts (dialogueMachine Security.sampleSha256
      ((dialogueMachine Security.sampleSha256).after (.create, .start)
        (firstPasswordAgain.take 3)) ⟨text "a", Security.zeroDraws⟩).2 ≠ [] := by
    decide
  have shown := (rule.completes.mp created).1
  revert shown
  decide

end Pmud.Controllers
