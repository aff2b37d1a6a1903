import Mathlib.Data.List.TakeWhile
import Pmud.Controllers.LoginHistory

/-! # Accounts and endings of a login

A login creates one account and ends once. Nothing in the controller remembers
that it has ended, so this depends on where the history stops.
-/

namespace Pmud.Controllers

open Pmud.Foundation UserClient

/-- The password of a history and the replies to it: the first input that is not
empty behind the first input that is not empty, and everything behind that. -/
def passwordAndReplies (inputs : List ByteString) : Option (ByteString × List ByteString) :=
  match (inputs.dropWhile (· = [])).tail.dropWhile (· = []) with
  | [] => none
  | password :: replies => some (password, replies)

/-- The inputs behind the first one that repeats the password. -/
def inputsAfterConfirmation (inputs : List ByteString) : List ByteString :=
  match passwordAndReplies inputs with
  | none => []
  | some (password, replies) => (replies.dropWhile (· ≠ password)).tail

/-- At most one account, at most one ending, and nothing behind the ending. -/
structure OneAccount (sends : Sends) : Prop where
  account : (accounts sends).length ≤ 1
  ending : sends.count (.command, .loginControllerEnd) ≤ 1
  silent : sends.Pairwise fun earlier _ => earlier ≠ (.command, .loginControllerEnd)

/-! ## Reading the password off a history -/

theorem dropWhile_blank {blanks : List ByteString} (blank : ∀ input ∈ blanks, input = [])
    {input : ByteString} (filled : input ≠ []) (rest : List ByteString) :
    (blanks ++ input :: rest).dropWhile (· = []) = input :: rest := by
  rw [List.dropWhile_append_of_pos (by simpa using blank)]
  simp [filled]

theorem dropWhile_blanks {blanks : List ByteString} (blank : ∀ input ∈ blanks, input = []) :
    blanks.dropWhile (· = []) = [] := by
  rw [List.dropWhile_eq_nil_iff]
  simpa using blank

theorem passwordAndReplies_of_unnamed {inputs : List ByteString}
    (blank : ∀ input ∈ inputs, input = []) : passwordAndReplies inputs = none := by
  simp [passwordAndReplies, dropWhile_blanks blank]

theorem passwordAndReplies_of_named {blanks between : List ByteString} {user : ByteString}
    (blank : ∀ input ∈ blanks, input = []) (named : user ≠ [])
    (stillBlank : ∀ input ∈ between, input = []) :
    passwordAndReplies (blanks ++ user :: between) = none := by
  simp [passwordAndReplies, dropWhile_blank blank named, dropWhile_blanks stillBlank]

theorem passwordAndReplies_of_chosen {blanks between : List ByteString}
    {user password : ByteString} (blank : ∀ input ∈ blanks, input = [])
    (named : user ≠ []) (stillBlank : ∀ input ∈ between, input = [])
    (chosen : password ≠ []) (replies : List ByteString) :
    passwordAndReplies (blanks ++ user :: (between ++ password :: replies)) =
      some (password, replies) := by
  simp [passwordAndReplies, dropWhile_blank blank named, dropWhile_blank stillBlank chosen]

section

variable {inputs : List ByteString} {password : ByteString}

theorem inputsAfterConfirmation_of_differ {replies : List ByteString}
    (parsed : passwordAndReplies inputs = some (password, replies))
    (differ : ∀ reply ∈ replies, reply ≠ password) : inputsAfterConfirmation inputs = [] := by
  have nothing : replies.dropWhile (· ≠ password) = [] := by
    rw [List.dropWhile_eq_nil_iff]
    simpa using differ
  simp only [inputsAfterConfirmation, parsed, nothing, List.tail_nil]

theorem inputsAfterConfirmation_of_confirmed {mismatches late : List ByteString}
    (parsed : passwordAndReplies inputs = some (password, mismatches ++ password :: late))
    (differ : ∀ reply ∈ mismatches, reply ≠ password) :
    inputsAfterConfirmation inputs = late := by
  have dropped : (mismatches ++ password :: late).dropWhile (· ≠ password) =
      password :: late := by
    rw [List.dropWhile_append_of_pos (by simpa using differ)]
    simp
  simp only [inputsAfterConfirmation, parsed, dropped, List.tail_cons]

end

/-! ## Sends without an ending -/

/-- Sends that neither create an account nor end the login. -/
def Unfinished (sends : Sends) : Prop :=
  accounts sends = [] ∧ (.command, .loginControllerEnd) ∉ sends

theorem Unfinished.append {first second : Sends} (before : Unfinished first)
    (after : Unfinished second) : Unfinished (first ++ second) := by
  refine ⟨?_, ?_⟩
  · rw [accounts_append, before.1, after.1, List.append_nil]
  · rw [List.mem_append]
    intro either
    rcases either with member | member
    · exact before.2 member
    · exact after.2 member

theorem Unfinished.repeated {answer : Sends} (unfinished : Unfinished answer)
    (inputs : List LoginInput) : Unfinished (inputs.flatMap fun _ => answer) := by
  induction inputs with
  | nil => exact ⟨rfl, List.not_mem_nil⟩
  | cons input rest induction =>
      rw [List.flatMap_cons]
      exact unfinished.append induction

theorem unfinished_namingAnswer : Unfinished namingAnswer :=
  ⟨rfl, by decide⟩

theorem unfinished_choosingAnswer : Unfinished choosingAnswer :=
  ⟨rfl, by decide⟩

theorem unfinished_mismatchAnswer : Unfinished mismatchAnswer :=
  ⟨rfl, by decide⟩

theorem unfinished_openingSends (blanks between : List LoginInput) :
    Unfinished (openingSends blanks between) :=
  (((unfinished_namingAnswer.repeated blanks).append unfinished_namingAnswer).append
    (unfinished_choosingAnswer.repeated between)).append unfinished_choosingAnswer

/-- The part of a completion in front of its ending. -/
def welcomeAndRecord (username credential : ByteString) : Sends :=
  greeting username ++ LoginController.recordEventUserCreate username credential

theorem completionAnswer_eq (username credential : ByteString) :
    completionAnswer username credential =
      welcomeAndRecord username credential ++ [(.command, .loginControllerEnd)] := rfl

theorem accounts_welcomeAndRecord (username credential : ByteString) :
    accounts (welcomeAndRecord username credential) = [(username, credential)] := rfl

theorem end_not_mem_welcomeAndRecord (username credential : ByteString) :
    (.command, .loginControllerEnd) ∉ welcomeAndRecord username credential := by
  simp [welcomeAndRecord, greeting, LoginController.recordEventUserCreate, emitUser]

/-! ## Where the history has to stop -/

section

variable {before : Sends} (unended : (.command, .loginControllerEnd) ∉ before)
include unended

theorem pairwise_of_not_ended :
    before.Pairwise fun earlier _ => earlier ≠ (ActorId.command, Message.loginControllerEnd) := by
  rw [List.pairwise_iff_forall_sublist]
  intro earlier later chosen equal
  exact unended (equal ▸ chosen.subset List.mem_cons_self)

theorem OneAccount.of_unended (single : (accounts before).length ≤ 1) : OneAccount before where
  account := single
  ending := by simp [List.count_eq_zero.mpr unended]
  silent := pairwise_of_not_ended unended

/-- Sends that end are in order when one account precedes the ending and
nothing follows it. -/
theorem oneAccount_of_ending (single : (accounts before).length ≤ 1) (late : Sends) :
    OneAccount (before ++ (.command, .loginControllerEnd) :: late) ↔ late = [] := by
  constructor
  · intro holds
    have ended := (List.pairwise_append.mp holds.silent).2.1
    cases late with
    | nil => rfl
    | cons next rest => exact absurd rfl ((List.pairwise_cons.mp ended).1 next (by simp))
  · intro same
    subst same
    refine ⟨?_, ?_, ?_⟩
    · rw [accounts_append, List.length_append]
      exact single
    · rw [List.count_append, List.count_eq_zero.mpr unended]
      decide
    · rw [List.pairwise_append]
      refine ⟨pairwise_of_not_ended unended, List.pairwise_singleton _ _, ?_⟩
      intro earlier member _ _ same
      subst same
      exact unended member

end

section

variable (sha256 : ByteString → ByteString)

theorem lateAnswer_ne_nil (username scrubbed : ByteString) (given : LoginInput) :
    lateAnswer sha256 username scrubbed given ≠ [] := by
  unfold lateAnswer
  split
  · simp [completionAnswer, greeting, emitUser]
  · decide

theorem lateAnswers_eq_nil (username scrubbed : ByteString) (late : List LoginInput) :
    late.flatMap (lateAnswer sha256 username scrubbed) = [] ↔ late = [] := by
  cases late with
  | nil => simp
  | cons given rest => simp [lateAnswer_ne_nil]

/-- A login either has no password yet and ends nothing, or has come to the
state that holds the user name and the password, with the replies to go. -/
theorem loginSends_cases (inputs : List LoginInput) :
    (passwordAndReplies (inputs.map LoginInput.input) = none ∧
        Unfinished (loginSends sha256 inputs)) ∨
      ∃ opening username password replies,
        passwordAndReplies (inputs.map LoginInput.input) =
            some (password, replies.map LoginInput.input) ∧
          username ≠ [] ∧ password ≠ [] ∧ Unfinished opening ∧
          loginSends sha256 inputs =
            opening ++ (loginMachine sha256).outputs ⟨username, password⟩ replies := by
  cases Course.of LoginInput.input inputs with
  | unnamed blank =>
      left
      rw [loginSends, (login_of_unnamed sha256 blank).1]
      exact ⟨passwordAndReplies_of_unnamed (by simpa using blank),
        unfinished_namingAnswer.repeated inputs⟩
  | @named blanks between user blank named stillBlank =>
      left
      constructor
      · rw [List.map_append, List.map_cons]
        exact passwordAndReplies_of_named (by simpa using blank) named
          (by simpa using stillBlank)
      · rw [loginSends_of_named sha256 blank named stillBlank]
        exact (unfinished_namingAnswer.repeated blanks).append
          (unfinished_namingAnswer.append (unfinished_choosingAnswer.repeated between))
  | @chosen blanks between replies user password blank named stillBlank chosen =>
      right
      refine ⟨openingSends blanks between, user.input, password.input, replies, ?_, named,
        chosen, unfinished_openingSends blanks between,
        (login_of_chosen sha256 blank named stillBlank password replies).1⟩
      simp only [List.map_append, List.map_cons]
      exact passwordAndReplies_of_chosen (by simpa using blank) named
        (by simpa using stillBlank) chosen _

/-- A history creates one account, ends once and falls silent exactly when it
stops at the input that repeats the password. -/
theorem oneAccount_iff_stopsAtConfirmation (inputs : List LoginInput) :
    OneAccount (loginSends sha256 inputs) ↔
      inputsAfterConfirmation (inputs.map LoginInput.input) = [] := by
  rcases loginSends_cases sha256 inputs with
    ⟨unchosen, unfinished⟩ |
    ⟨opening, username, password, replies, parsed, named, chosen, unfinished, sends⟩
  · have nothing : inputsAfterConfirmation (inputs.map LoginInput.input) = [] := by
      simp only [inputsAfterConfirmation, unchosen]
    exact iff_of_true (OneAccount.of_unended unfinished.2 (by simp [unfinished.1])) nothing
  rw [sends]
  rcases List.none_or_first (fun given => given.input = password) replies with
    differ | ⟨mismatches, confirming, late, rfl, equal, differ⟩
  · have kept := unfinished.append (unfinished_mismatchAnswer.repeated replies)
    rw [(login_of_mismatches sha256 named chosen differ).1]
    exact iff_of_true (OneAccount.of_unended kept.2 (by simp [kept.1]))
      (inputsAfterConfirmation_of_differ parsed (by simpa using differ))
  · have kept := unfinished.append (unfinished_mismatchAnswer.repeated mismatches)
    have late_eq : inputsAfterConfirmation (inputs.map LoginInput.input) =
        late.map LoginInput.input := by
      rw [List.map_append, List.map_cons, equal] at parsed
      exact inputsAfterConfirmation_of_confirmed parsed (by simpa using differ)
    have split : opening ++ (loginMachine sha256).outputs ⟨username, password⟩
          (mismatches ++ confirming :: late) =
        opening ++ mismatches.flatMap (fun _ => mismatchAnswer) ++
            welcomeAndRecord username (credentialOf sha256 password confirming.draws) ++
          (.command, .loginControllerEnd) ::
            late.flatMap
              (lateAnswer sha256 username (LoginController.scrubPassword password)) := by
      rw [login_of_completion sha256 named chosen differ equal, completionAnswer_eq]
      simp only [List.append_assoc, List.singleton_append]
    rw [split, oneAccount_of_ending, lateAnswers_eq_nil, late_eq, List.map_eq_nil_iff]
    · rw [List.mem_append, not_or]
      exact ⟨kept.2, end_not_mem_welcomeAndRecord _ _⟩
    · rw [accounts_append, kept.1, accounts_welcomeAndRecord]
      exact Nat.le_refl 1

end

/-- One more input after a complete login: the blank that the scrub left of the
password. -/
def blankReply : List LoginInput :=
  [text "nick", text "p", text "p", text " "].map fun input => ⟨input, Security.zeroDraws⟩

theorem not_oneAccount_of_blankReply :
    ¬ OneAccount (loginSends Security.sampleSha256 blankReply) := by
  intro holds
  have two : (accounts (loginSends Security.sampleSha256 blankReply)).length = 2 := by
    decide
  have single := holds.account
  omega

end Pmud.Controllers
