import Pmud.Foundation.Lists
import Pmud.Foundation.Machine
import Pmud.Controllers.LoginController

/-! # Input histories of a login controller

The controller keeps its phase in the emptiness of two strings. Every input
history therefore has one of three courses, and each course fixes what is put
out. The number of accounts a history creates is settled here.
-/

namespace Pmud.Controllers

open Pmud.Foundation UserClient Security

/-- An `OnUserInput` and the draws of the salt, should one be needed. -/
structure LoginInput where
  input : ByteString
  draws : Draws

/-- The controller as a machine on its inputs. -/
def loginMachine (sha256 : ByteString → ByteString) :
    Machine LoginController LoginInput (ActorId × Message) :=
  fun controller given => controller.onUserInput sha256 given.draws given.input

/-- Everything a fresh controller sends in answer to the inputs. -/
def loginSends (sha256 : ByteString → ByteString) (inputs : List LoginInput) : Sends :=
  (loginMachine sha256).outputs .create inputs

/-- The accounts among the messages sent: user name and credential. -/
def accounts (sends : Sends) : List (ByteString × ByteString) :=
  sends.filterMap fun
    | (_, .eventUserCreate username passphrase) => some (username, passphrase)
    | _ => none

@[simp] theorem accounts_nil : accounts [] = [] := rfl

@[simp] theorem accounts_append (first second : Sends) :
    accounts (first ++ second) = accounts first ++ accounts second :=
  List.filterMap_append

/-! ## The four answers -/

def namingAnswer : Sends :=
  emitUser .command suppressEchoSequence ++ promptUser .command (text "enter password")

def choosingAnswer : Sends :=
  emitUser .command ++ promptUser .command (text "confirm password")

def mismatchAnswer : Sends :=
  emitUser .command ++
    emitUser .command (text "Passwords don't match, please try again.") ++
    emitUser .command suppressEchoSequence ++ promptUser .command (text "enter password")

def greeting (username : ByteString) : Sends :=
  emitUser .command enableEchoSequence ++ emitUser .command ++
    emitUser .command (text "Welcome to Primordia " ++ username ++ text "!") ++
    emitUser .command

def completionAnswer (username credential : ByteString) : Sends :=
  greeting username ++ LoginController.recordEventUserCreate username credential ++
    endController .command

@[simp] theorem accounts_namingAnswer : accounts namingAnswer = [] := rfl

@[simp] theorem accounts_choosingAnswer : accounts choosingAnswer = [] := rfl

@[simp] theorem accounts_mismatchAnswer : accounts mismatchAnswer = [] := rfl

@[simp] theorem accounts_completionAnswer (username credential : ByteString) :
    accounts (completionAnswer username credential) = [(username, credential)] := rfl

/-- The credential of a password under the salt of some draws. -/
def credentialOf (sha256 : ByteString → ByteString) (password : ByteString)
    (draws : Draws) : ByteString :=
  (hashCredentials sha256 password (generateRandomSalt draws)).toBytes

section Steps

variable (sha256 : ByteString → ByteString) (given : LoginInput)

theorem login_unnamed :
    loginMachine sha256 .create given = (⟨given.input, []⟩, namingAnswer) := by
  simp [loginMachine, LoginController.onUserInput, LoginController.create, namingAnswer]

theorem login_named {username : ByteString} (named : username ≠ []) :
    loginMachine sha256 ⟨username, []⟩ given =
      (⟨username, given.input⟩, choosingAnswer) := by
  simp [loginMachine, LoginController.onUserInput, named, choosingAnswer]

theorem login_mismatch {username password : ByteString} (named : username ≠ [])
    (chosen : password ≠ []) (differs : given.input ≠ password) :
    loginMachine sha256 ⟨username, password⟩ given =
      (⟨username, password⟩, mismatchAnswer) := by
  simp [loginMachine, LoginController.onUserInput, named, chosen, differs.symm,
    mismatchAnswer]

theorem login_match {username password : ByteString} (named : username ≠ [])
    (chosen : password ≠ []) (equal : given.input = password) :
    loginMachine sha256 ⟨username, password⟩ given =
      (⟨username, LoginController.scrubPassword password⟩,
        completionAnswer username (credentialOf sha256 password given.draws)) := by
  simp [loginMachine, LoginController.onUserInput, named, chosen, equal,
    LoginController.hashAndScrubPassword, completionAnswer, greeting, credentialOf]

end Steps

@[simp] theorem LoginController.scrubPassword_scrubPassword (password : ByteString) :
    scrubPassword (scrubPassword password) = scrubPassword password := by
  simp [scrubPassword]

theorem LoginController.scrubPassword_ne_nil {password : ByteString}
    (chosen : password ≠ []) : scrubPassword password ≠ [] := by
  simpa [scrubPassword] using chosen

/-! ## The courses of a history -/

/-- A history before a user name is given, before a password is given, or with
both given. `text` projects the input, so that two histories can take their
course together. -/
inductive Course {α : Type} (text : α → ByteString) : List α → Prop
  | unnamed {inputs : List α} (blank : ∀ given ∈ inputs, text given = []) :
      Course text inputs
  | named {blanks between : List α} {user : α} (blank : ∀ given ∈ blanks, text given = [])
      (named : text user ≠ []) (stillBlank : ∀ given ∈ between, text given = []) :
      Course text (blanks ++ user :: between)
  | chosen {blanks between replies : List α} {user password : α}
      (blank : ∀ given ∈ blanks, text given = []) (named : text user ≠ [])
      (stillBlank : ∀ given ∈ between, text given = []) (chosen : text password ≠ []) :
      Course text (blanks ++ user :: (between ++ password :: replies))

theorem Course.of {α : Type} (text : α → ByteString) (inputs : List α) :
    Course text inputs := by
  rcases List.none_or_first (fun given => text given ≠ []) inputs with
    blank | ⟨blanks, user, rest, rfl, named, blank⟩
  · exact .unnamed fun given member => not_not.mp (blank given member)
  · rcases List.none_or_first (fun given => text given ≠ []) rest with
      stillBlank | ⟨between, password, replies, rfl, chosen, stillBlank⟩
    · exact .named (fun given member => not_not.mp (blank given member)) named
        fun given member => not_not.mp (stillBlank given member)
    · exact .chosen (fun given member => not_not.mp (blank given member)) named
        (fun given member => not_not.mp (stillBlank given member)) chosen

section Courses

variable (sha256 : ByteString → ByteString)

theorem login_of_unnamed {inputs : List LoginInput}
    (blank : ∀ given ∈ inputs, given.input = []) :
    (loginMachine sha256).outputs .create inputs = inputs.flatMap (fun _ => namingAnswer) ∧
      (loginMachine sha256).after .create inputs = .create := by
  apply Machine.outputs_of_stationary
  intro given member
  rw [login_unnamed, blank given member]
  rfl

theorem login_of_named {username : ByteString} (named : username ≠ [])
    {between : List LoginInput} (blank : ∀ given ∈ between, given.input = []) :
    (loginMachine sha256).outputs ⟨username, []⟩ between =
        between.flatMap (fun _ => choosingAnswer) ∧
      (loginMachine sha256).after ⟨username, []⟩ between = ⟨username, []⟩ := by
  apply Machine.outputs_of_stationary
  intro given member
  rw [login_named sha256 given named, blank given member]

theorem login_of_mismatches {username password : ByteString} (named : username ≠ [])
    (chosen : password ≠ []) {replies : List LoginInput}
    (differ : ∀ given ∈ replies, given.input ≠ password) :
    (loginMachine sha256).outputs ⟨username, password⟩ replies =
        replies.flatMap (fun _ => mismatchAnswer) ∧
      (loginMachine sha256).after ⟨username, password⟩ replies = ⟨username, password⟩ := by
  apply Machine.outputs_of_stationary
  intro given member
  exact login_mismatch sha256 given named chosen (differ given member)

/-- What a controller that has already scrubbed its password answers. -/
def lateAnswer (username scrubbed : ByteString) (given : LoginInput) : Sends :=
  if given.input = scrubbed then
    completionAnswer username (credentialOf sha256 scrubbed given.draws)
  else
    mismatchAnswer

/-- After the scrub the controller goes on answering, with the blanks as its
password. -/
theorem login_of_late {username password : ByteString} (named : username ≠ [])
    (chosen : password ≠ []) (late : List LoginInput) :
    (loginMachine sha256).outputs ⟨username, LoginController.scrubPassword password⟩ late =
      late.flatMap (lateAnswer sha256 username (LoginController.scrubPassword password)) := by
  refine (Machine.outputs_of_stationary _ fun given _ => ?_).1
  have scrubbed := LoginController.scrubPassword_ne_nil chosen
  unfold lateAnswer
  split
  · rename_i equal
    rw [login_match sha256 given named scrubbed equal,
      LoginController.scrubPassword_scrubPassword]
  · rename_i differs
    exact login_mismatch sha256 given named scrubbed differs

/-- The answers up to and including the first password. -/
def openingSends (blanks between : List LoginInput) : Sends :=
  blanks.flatMap (fun _ => namingAnswer) ++ namingAnswer ++
    between.flatMap (fun _ => choosingAnswer) ++ choosingAnswer

/-- A history in which both are given: a fixed opening, then the replies to the
state that holds the name and the password. -/
theorem login_of_chosen {blanks between : List LoginInput} {user : LoginInput}
    (blank : ∀ given ∈ blanks, given.input = []) (named : user.input ≠ [])
    (stillBlank : ∀ given ∈ between, given.input = []) (password : LoginInput)
    (replies : List LoginInput) :
    let inputs := blanks ++ user :: (between ++ password :: replies)
    loginSends sha256 inputs = openingSends blanks between ++
        (loginMachine sha256).outputs ⟨user.input, password.input⟩ replies ∧
      (loginMachine sha256).after .create inputs =
        (loginMachine sha256).after ⟨user.input, password.input⟩ replies := by
  have naming := login_of_unnamed sha256 blank
  have choosing := login_of_named sha256 named stillBlank
  simp only [loginSends, Machine.outputs_append, Machine.after_append, naming.1, naming.2,
    Machine.outputs_cons, Machine.after_cons, login_unnamed, choosing.1, choosing.2,
    login_named sha256 password named, openingSends, List.append_assoc, and_self]

theorem loginSends_of_named {blanks between : List LoginInput} {user : LoginInput}
    (blank : ∀ given ∈ blanks, given.input = []) (named : user.input ≠ [])
    (stillBlank : ∀ given ∈ between, given.input = []) :
    loginSends sha256 (blanks ++ user :: between) =
      blanks.flatMap (fun _ => namingAnswer) ++
        (namingAnswer ++ between.flatMap fun _ => choosingAnswer) := by
  have naming := login_of_unnamed sha256 blank
  have choosing := login_of_named sha256 named stillBlank
  rw [loginSends, Machine.outputs_append, naming.1, naming.2, Machine.outputs_cons,
    login_unnamed, choosing.1]

/-- The replies up to the first that repeats the password, and what follows. -/
theorem login_of_completion {username : ByteString} (named : username ≠ [])
    {password : ByteString} (chosen : password ≠ []) {replies : List LoginInput}
    (differ : ∀ given ∈ replies, given.input ≠ password) {confirming : LoginInput}
    (equal : confirming.input = password) (late : List LoginInput) :
    (loginMachine sha256).outputs ⟨username, password⟩ (replies ++ confirming :: late) =
      replies.flatMap (fun _ => mismatchAnswer) ++
        completionAnswer username (credentialOf sha256 password confirming.draws) ++
        late.flatMap (lateAnswer sha256 username (LoginController.scrubPassword password)) := by
  have mismatches := login_of_mismatches sha256 named chosen differ
  simp only [Machine.outputs_append, mismatches.1, mismatches.2, Machine.outputs_cons,
    login_match sha256 confirming named chosen equal, login_of_late sha256 named chosen,
    List.append_assoc]

end Courses

end Pmud.Controllers
