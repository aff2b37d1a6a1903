import Mathlib.Data.List.Forall2
import Pmud.Controllers.LoginCompletion
import Pmud.Controllers.LoginDialogue

/-! # Secrecy of what is typed at a password prompt

Two histories that differ only in replies to password prompts are followed
together, as one history of pairs.
-/

namespace Pmud.Controllers

open Pmud.Foundation UserClient

/-- Messages for the user's eyes. -/
def isPublished : ActorId × Message → Bool
  | (_, .toUserEmit _) => true
  | (_, .toUserPrompt _) => true
  | _ => false

def published (sends : Sends) : Sends := sends.filter isPublished

@[simp] theorem published_append (first second : Sends) :
    published (first ++ second) = published first ++ published second :=
  List.filter_append _ _

def inputAt (inputs : List LoginInput) (index : Nat) : Option ByteString :=
  inputs[index]?.map LoginInput.input

def isPasswordPrompt (shown : Option ByteString) : Bool :=
  shown = some enterPassword || shown = some confirmPassword

section Prompts

variable (sha256 : ByteString → ByteString)

/-- The input at `index` is given in reply to a password prompt. -/
def PasswordPrompted (inputs : List LoginInput) (index : Nat) : Prop :=
  isPasswordPrompt (dialogueAfter sha256 (inputs.take index)).shown = true

/-- The histories differ only in replies to password prompts, and there only in
which non-empty strings stand for each other. -/
structure DifferInSecrets (first second : List LoginInput) : Prop where
  length : first.length = second.length
  prompted : ∀ index < first.length, inputAt first index ≠ inputAt second index →
    PasswordPrompted sha256 first index ∧ PasswordPrompted sha256 second index
  blank : ∀ index < first.length, PasswordPrompted sha256 first index →
    (inputAt first index = some [] ↔ inputAt second index = some [])
  equal : ∀ index < first.length, ∀ other < first.length,
    PasswordPrompted sha256 first index → PasswordPrompted sha256 first other →
      (inputAt first index = inputAt first other ↔
        inputAt second index = inputAt second other)

/-- Every recorded user name was typed at a prompt that did not ask for a
password. -/
def NamesTypedOpenly (inputs : List LoginInput) : Prop :=
  ∀ account ∈ accounts (loginSends sha256 inputs),
    ∃ index, ¬ PasswordPrompted sha256 inputs index ∧ inputAt inputs index = some account.1

/-- Nothing published tells the two histories apart. -/
structure SameView (first second : List LoginInput) : Prop where
  published : published (loginSends sha256 first) = published (loginSends sha256 second)
  names : (accounts (loginSends sha256 first)).map Prod.fst =
    (accounts (loginSends sha256 second)).map Prod.fst
  firstOpenly : NamesTypedOpenly sha256 first
  secondOpenly : NamesTypedOpenly sha256 second

theorem isPasswordPrompt_enter : isPasswordPrompt (some enterPassword) = true := by decide

theorem isPasswordPrompt_confirm : isPasswordPrompt (some confirmPassword) = true := by decide

theorem prompts_completionAnswer (username credential : ByteString) :
    prompts (completionAnswer username credential) = [] := rfl

/-- Once a password has been asked for, nothing else is. -/
theorem isPasswordPrompt_kept (state : LoginController × Dialogue) (given : LoginInput)
    (shown : isPasswordPrompt state.2.shown = true) :
    isPasswordPrompt (dialogueMachine sha256 state given).1.2.shown = true := by
  rcases state with ⟨⟨username, password⟩, dialogue⟩
  by_cases unnamed : username = []
  · simp only [dialogueMachine, loginMachine, LoginController.onUserInput, Dialogue.hear,
      unnamed, if_true]
    exact isPasswordPrompt_enter
  · by_cases unchosen : password = []
    · rw [unchosen, dialogue_named sha256 given dialogue unnamed]
      exact isPasswordPrompt_confirm
    · by_cases equal : given.input = password
      · simp only [dialogueMachine, login_match sha256 given unnamed unchosen equal,
          Dialogue.hear, prompts_completionAnswer]
        exact shown
      · rw [dialogue_mismatch sha256 given dialogue unnamed unchosen equal]
        exact isPasswordPrompt_enter

/-- Only the first input is not a reply to a password prompt. -/
theorem passwordPrompted_iff {inputs : List LoginInput} {index : Nat}
    (within : index < inputs.length) :
    PasswordPrompted sha256 inputs index ↔ 0 < index := by
  cases inputs with
  | nil => simp at within
  | cons given rest =>
      cases index with
      | zero =>
          have unprompted : ¬ isPasswordPrompt Dialogue.start.shown = true := by decide
          exact iff_of_false unprompted (Nat.lt_irrefl 0)
      | succ index =>
          have asked : isPasswordPrompt
              ((dialogueMachine sha256 (.create, .start) given).1).2.shown = true := by
            rw [dialogue_unnamed]
            exact isPasswordPrompt_enter
          have kept := Machine.after_invariant (dialogueMachine sha256)
            (fun state => isPasswordPrompt state.2.shown = true)
            (isPasswordPrompt_kept sha256) asked (rest.take index)
          simpa [PasswordPrompted, dialogueAfter] using kept

end Prompts

/-! ## Two histories as one -/

/-- What a list of pairs of inputs is when its sides differ in secrets. -/
structure PatternsAgree (pairs : List (LoginInput × LoginInput)) : Prop where
  head : ∀ pair ∈ pairs.head?, pair.1.input = pair.2.input
  blank : ∀ pair ∈ pairs.tail, (pair.1.input = [] ↔ pair.2.input = [])
  equal : ∀ pair ∈ pairs.tail, ∀ other ∈ pairs.tail,
    (pair.1.input = other.1.input ↔ pair.2.input = other.2.input)

theorem PatternsAgree.blank_everywhere {pairs : List (LoginInput × LoginInput)}
    (agree : PatternsAgree pairs) {pair : LoginInput × LoginInput} (member : pair ∈ pairs) :
    pair.1.input = [] ↔ pair.2.input = [] := by
  cases pairs with
  | nil => cases member
  | cons head rest =>
      rcases List.mem_cons.mp member with rfl | later
      · rw [agree.head pair rfl]
      · exact agree.blank pair later

theorem inputAt_map {pairs : List (LoginInput × LoginInput)}
    (side : LoginInput × LoginInput → LoginInput) {index : Nat} (within : index < pairs.length) :
    inputAt (pairs.map side) index = some (side pairs[index]).input := by
  simp [inputAt, within]

theorem getElem_mem_tail {α : Type} {items : List α} {index : Nat} (positive : 0 < index)
    (within : index < items.length) : items[index] ∈ items.tail := by
  cases items with
  | nil => simp at within
  | cons head rest =>
      cases index with
      | zero => exact absurd positive (Nat.lt_irrefl 0)
      | succ index => simp

theorem mem_tail_index {α : Type} {items : List α} {item : α} (member : item ∈ items.tail) :
    ∃ index, ∃ within : index < items.length, 0 < index ∧ items[index] = item := by
  cases items with
  | nil => cases member
  | cons head rest =>
      rcases List.mem_iff_getElem.mp member with ⟨index, within, found⟩
      exact ⟨index + 1, Nat.succ_lt_succ within, Nat.succ_pos index, found⟩

theorem differInSecrets_iff_patternsAgree (sha256 : ByteString → ByteString)
    (pairs : List (LoginInput × LoginInput)) :
    DifferInSecrets sha256 (pairs.map Prod.fst) (pairs.map Prod.snd) ↔
      PatternsAgree pairs := by
  have prompted : ∀ (side : LoginInput × LoginInput → LoginInput) {index},
      index < pairs.length → (PasswordPrompted sha256 (pairs.map side) index ↔ 0 < index) :=
    fun side index within => passwordPrompted_iff sha256 (by simpa using within)
  constructor
  · intro secrets
    refine ⟨?_, ?_, ?_⟩
    · intro pair first
      by_contra differ
      cases pairs with
      | nil => cases first
      | cons head rest =>
          obtain rfl : head = pair := by simpa using first
          have asked := (secrets.prompted 0 (by simp) (by simpa [inputAt] using differ)).1
          exact absurd ((prompted Prod.fst (by simp)).mp asked) (Nat.lt_irrefl 0)
    · intro pair member
      rcases mem_tail_index member with ⟨index, within, positive, rfl⟩
      have agree := secrets.blank index (by simpa using within)
        ((prompted Prod.fst within).mpr positive)
      simpa [inputAt_map, within] using agree
    · intro pair member other otherMember
      rcases mem_tail_index member with ⟨index, within, positive, rfl⟩
      rcases mem_tail_index otherMember with ⟨place, placed, behind, rfl⟩
      have agree := secrets.equal index (by simpa using within) place (by simpa using placed)
        ((prompted Prod.fst within).mpr positive) ((prompted Prod.fst placed).mpr behind)
      simpa [inputAt_map, within, placed] using agree
  · intro agree
    refine ⟨by simp, ?_, ?_, ?_⟩
    · intro index below differ
      have within : index < pairs.length := by simpa using below
      rw [inputAt_map _ within, inputAt_map _ within, ne_eq, Option.some.injEq] at differ
      rw [prompted _ within, prompted _ within, and_self]
      by_contra first
      obtain rfl : index = 0 := by omega
      exact differ (agree.head _ (List.head?_eq_getElem? ▸ List.getElem?_eq_getElem within))
    · intro index below asked
      have within : index < pairs.length := by simpa using below
      have positive := (prompted _ within).mp asked
      simpa [inputAt_map, within] using agree.blank _ (getElem_mem_tail positive within)
    · intro index below other otherBelow asked otherAsked
      have within : index < pairs.length := by simpa using below
      have placed : other < pairs.length := by simpa using otherBelow
      have positive := (prompted _ within).mp asked
      have behind := (prompted _ placed).mp otherAsked
      simpa [inputAt_map, within, placed] using agree.equal _
        (getElem_mem_tail positive within) _ (getElem_mem_tail behind placed)

/-! ## Where the login completes -/

/-- The password of a history, if one of the replies repeats it. -/
def confirmedPassword (inputs : List ByteString) : Option ByteString :=
  match passwordAndReplies inputs with
  | none => none
  | some (password, replies) => if password ∈ replies then some password else none

/-- Where both histories complete, the first input is the user name, and the
inputs behind the completion agree on which of them repeat the scrubbed
password. -/
def NamedFirstAndLateRepliesAgree (first second : List ByteString) : Prop :=
  ∀ password ∈ confirmedPassword first, ∀ other ∈ confirmedPassword second,
    first.head? ≠ some [] ∧
      List.Forall₂ (fun left right => left = LoginController.scrubPassword password ↔
          right = LoginController.scrubPassword other)
        (inputsAfterConfirmation first) (inputsAfterConfirmation second)

theorem published_completionAnswer (username credential : ByteString) :
    published (completionAnswer username credential) = greeting username := rfl

theorem published_mismatchAnswer : published mismatchAnswer = mismatchAnswer := by decide

theorem greeting_ne_mismatchAnswer (username : ByteString) :
    greeting username ≠ mismatchAnswer := by
  intro equal
  have heads := congrArg List.head? equal
  simp [greeting, mismatchAnswer, emitUser, enableEchoSequence] at heads

section Late

variable (sha256 : ByteString → ByteString) (username scrubbed : ByteString)

theorem published_lateAnswers (late : List LoginInput) :
    published (late.flatMap (lateAnswer sha256 username scrubbed)) =
      late.flatMap fun given =>
        if given.input = scrubbed then greeting username else mismatchAnswer := by
  induction late with
  | nil => rfl
  | cons given rest induction =>
      rw [List.flatMap_cons, published_append, induction, List.flatMap_cons, lateAnswer]
      split
      · rw [published_completionAnswer]
      · rw [published_mismatchAnswer]

theorem names_lateAnswers (late : List LoginInput) :
    (accounts (late.flatMap (lateAnswer sha256 username scrubbed))).map Prod.fst =
      late.flatMap fun given => if given.input = scrubbed then [username] else [] := by
  induction late with
  | nil => rfl
  | cons given rest induction =>
      rw [List.flatMap_cons, accounts_append, List.map_append, induction, List.flatMap_cons,
        lateAnswer]
      split
      · rfl
      · rfl

end Late

/-- The late answers to the two sides look the same exactly when the sides agree
on which inputs repeat their scrubbed password. -/
theorem published_lateAnswers_eq_iff (sha256 : ByteString → ByteString)
    (username scrubbed other : ByteString) (late : List (LoginInput × LoginInput)) :
    published ((late.map Prod.fst).flatMap (lateAnswer sha256 username scrubbed)) =
        published ((late.map Prod.snd).flatMap (lateAnswer sha256 username other)) ↔
      ∀ pair ∈ late, (pair.1.input = scrubbed ↔ pair.2.input = other) := by
  rw [published_lateAnswers, published_lateAnswers, List.flatMap_map, List.flatMap_map,
    Foundation.List.flatMap_eq_iff]
  · apply forall₂_congr
    intro pair _
    have different := greeting_ne_mismatchAnswer username
    by_cases left : pair.1.input = scrubbed
    · by_cases right : pair.2.input = other
      · simp [left, right]
      · simp [left, right, different]
    · by_cases right : pair.2.input = other
      · simp [left, right, different.symm]
      · simp [left, right]
  · intro pair
    split
    · split
      · rfl
      · rfl
    · split
      · rfl
      · rfl

/-! ## The two sides of a history with a password -/

theorem mem_tail_of_mem_behind {α : Type} {blanks rest : List α} {user item : α}
    (member : item ∈ rest) : item ∈ (blanks ++ user :: rest).tail := by
  cases blanks with
  | nil => exact member
  | cons head blanks =>
      simp only [List.cons_append, List.tail_cons, List.mem_append, List.mem_cons]
      exact .inr (.inr member)

/-- A single recorded name was typed openly when it was the first input. -/
theorem namesTypedOpenly_iff (sha256 : ByteString → ByteString) {inputs : List LoginInput}
    (username : ByteString)
    (only : ∀ name ∈ (accounts (loginSends sha256 inputs)).map Prod.fst, name = username)
    (occurs : username ∈ (accounts (loginSends sha256 inputs)).map Prod.fst) :
    NamesTypedOpenly sha256 inputs ↔ inputAt inputs 0 = some username := by
  constructor
  · intro openly
    rcases List.mem_map.mp occurs with ⟨account, member, rfl⟩
    rcases openly account member with ⟨index, unprompted, typed⟩
    rcases Option.map_eq_some_iff.mp typed with ⟨given, found, -⟩
    have within := (List.getElem?_eq_some_iff.mp found).1
    rw [passwordPrompted_iff sha256 within, Nat.not_lt, Nat.le_zero] at unprompted
    rw [← unprompted, typed]
  · intro first account member
    refine ⟨0, ?_, ?_⟩
    · rcases Option.map_eq_some_iff.mp first with ⟨given, found, -⟩
      have within := (List.getElem?_eq_some_iff.mp found).1
      rw [passwordPrompted_iff sha256 within]
      exact Nat.lt_irrefl 0
    · rw [first, only account.1 (List.mem_map_of_mem member)]

/-- Histories that send the same and create no account look the same. -/
theorem SameView.of_same {sha256 : ByteString → ByteString} {first second : List LoginInput}
    (same : loginSends sha256 first = loginSends sha256 second)
    (quiet : accounts (loginSends sha256 first) = []) : SameView sha256 first second where
  published := by rw [same]
  names := by rw [same]
  firstOpenly := by simp [NamesTypedOpenly, quiet]
  secondOpenly := by simp [NamesTypedOpenly, ← same, quiet]

/-- A history up to the password: the first input that is not empty is the user
name, and only empty inputs follow. -/
structure Opened (blanks : List LoginInput) (user : LoginInput) (between : List LoginInput) :
    Prop where
  blank : ∀ given ∈ blanks, given.input = []
  named : user.input ≠ []
  stillBlank : ∀ given ∈ between, given.input = []

section Completed

variable (sha256 : ByteString → ByteString) {blanks between mismatches : List LoginInput}
  {user password confirming : LoginInput} (opened : Opened blanks user between)
  (chosen : password.input ≠ []) (differ : ∀ given ∈ mismatches, given.input ≠ password.input)
  (equal : confirming.input = password.input) (late : List LoginInput)
include opened chosen

theorem passwordAndReplies_of_opened (replies : List LoginInput) :
    passwordAndReplies ((blanks ++ user :: (between ++ password :: replies)).map
      LoginInput.input) = some (password.input, replies.map LoginInput.input) := by
  simp only [List.map_append, List.map_cons]
  exact passwordAndReplies_of_chosen (List.forall_mem_map.mpr opened.blank) opened.named
    (List.forall_mem_map.mpr opened.stillBlank) chosen _

include differ equal

theorem loginSends_of_completed :
    loginSends sha256
        (blanks ++ user :: (between ++ password :: (mismatches ++ confirming :: late))) =
      openingSends blanks between ++ mismatches.flatMap (fun _ => mismatchAnswer) ++
        completionAnswer user.input (credentialOf sha256 password.input confirming.draws) ++
          late.flatMap (lateAnswer sha256 user.input
            (LoginController.scrubPassword password.input)) := by
  have sends := (login_of_chosen sha256 opened.blank opened.named opened.stillBlank password
    (mismatches ++ confirming :: late)).1
  rw [sends, login_of_completion sha256 opened.named chosen differ equal]
  simp only [List.append_assoc]

/-- What the inputs of a completed history say about it. -/
theorem read_of_completed :
    let inputs := (blanks ++ user ::
      (between ++ password :: (mismatches ++ confirming :: late))).map LoginInput.input
    confirmedPassword inputs = some password.input ∧
      inputsAfterConfirmation inputs = late.map LoginInput.input := by
  intro inputs
  have parsed : passwordAndReplies inputs = some (password.input,
      mismatches.map LoginInput.input ++ password.input :: late.map LoginInput.input) := by
    rw [passwordAndReplies_of_opened opened chosen, List.map_append, List.map_cons, equal]
  constructor
  · simp [confirmedPassword, parsed]
  · exact inputsAfterConfirmation_of_confirmed parsed (List.forall_mem_map.mpr differ)

theorem published_of_completed :
    published (loginSends sha256
        (blanks ++ user :: (between ++ password :: (mismatches ++ confirming :: late)))) =
      published (openingSends blanks between) ++
        published (mismatches.flatMap fun _ => mismatchAnswer) ++ greeting user.input ++
          published (late.flatMap (lateAnswer sha256 user.input
            (LoginController.scrubPassword password.input))) := by
  rw [loginSends_of_completed sha256 opened chosen differ equal]
  simp only [published_append, published_completionAnswer]

theorem names_of_completed :
    (accounts (loginSends sha256
        (blanks ++ user :: (between ++ password :: (mismatches ++ confirming :: late))))).map
          Prod.fst =
      user.input :: late.flatMap fun given =>
        if given.input = LoginController.scrubPassword password.input then [user.input]
        else [] := by
  rw [loginSends_of_completed sha256 opened chosen differ equal]
  have opening := (unfinished_openingSends blanks between).1
  have waiting := (unfinished_mismatchAnswer.repeated mismatches).1
  rw [← names_lateAnswers sha256]
  simp [opening, waiting]

/-- In a completed history the recorded name was typed openly when the very
first input became the user name. -/
theorem openly_of_completed :
    NamesTypedOpenly sha256
        (blanks ++ user :: (between ++ password :: (mismatches ++ confirming :: late))) ↔
      blanks = [] := by
  have names := names_of_completed sha256 opened chosen differ equal late
  rw [namesTypedOpenly_iff sha256 user.input]
  · cases blanks with
    | nil => simp [inputAt]
    | cons head blanks =>
        have empty : head.input = [] := opened.blank head List.mem_cons_self
        simp [inputAt, empty, opened.named.symm]
  · rw [names]
    intro name member
    rcases List.mem_cons.mp member with rfl | later
    · rfl
    · rcases List.mem_flatMap.mp later with ⟨given, -, inside⟩
      split at inside
      · simpa using inside
      · cases inside
  · rw [names]
    exact List.mem_cons_self

end Completed

/-! ## The courses of two histories -/

theorem PatternsAgree.blank_sides {pairs inside : List (LoginInput × LoginInput)}
    (agree : PatternsAgree pairs) (within : ∀ pair ∈ inside, pair ∈ pairs)
    (blank : ∀ pair ∈ inside, pair.1.input = []) :
    (∀ given ∈ inside.map Prod.fst, given.input = []) ∧
      ∀ given ∈ inside.map Prod.snd, given.input = [] := by
  refine ⟨List.forall_mem_map.mpr blank, List.forall_mem_map.mpr fun pair member => ?_⟩
  exact (agree.blank_everywhere (within pair member)).mp (blank pair member)

theorem PatternsAgree.opened_sides {pairs blanks between : List (LoginInput × LoginInput)}
    {user : LoginInput × LoginInput} (agree : PatternsAgree pairs)
    (within : ∀ pair ∈ blanks ++ user :: between, pair ∈ pairs)
    (blank : ∀ pair ∈ blanks, pair.1.input = []) (named : user.1.input ≠ [])
    (stillBlank : ∀ pair ∈ between, pair.1.input = []) :
    Opened (blanks.map Prod.fst) user.1 (between.map Prod.fst) ∧
      Opened (blanks.map Prod.snd) user.2 (between.map Prod.snd) := by
  have front := agree.blank_sides (fun pair member => within pair (by simp [member])) blank
  have back := agree.blank_sides (fun pair member => within pair (by simp [member])) stillBlank
  have namedToo : user.2.input ≠ [] := fun empty =>
    named ((agree.blank_everywhere (within user (by simp))).mpr empty)
  exact ⟨⟨front.1, named, back.1⟩, ⟨front.2, namedToo, back.2⟩⟩

section Pairs

variable (sha256 : ByteString → ByteString)

/-- `SameView` is decided by the inputs alone. -/
def Decided (pairs : List (LoginInput × LoginInput)) : Prop :=
  SameView sha256 (pairs.map Prod.fst) (pairs.map Prod.snd) ↔
    NamedFirstAndLateRepliesAgree ((pairs.map Prod.fst).map LoginInput.input)
      ((pairs.map Prod.snd).map LoginInput.input)

/-- Without a completion the two sides send the same. -/
theorem decided_of_unconfirmed {pairs : List (LoginInput × LoginInput)}
    (same : loginSends sha256 (pairs.map Prod.fst) = loginSends sha256 (pairs.map Prod.snd))
    (quiet : accounts (loginSends sha256 (pairs.map Prod.fst)) = [])
    (unconfirmed :
      confirmedPassword ((pairs.map Prod.fst).map LoginInput.input) = none) :
    Decided sha256 pairs := by
  apply iff_of_true (.of_same same quiet)
  intro password member
  rw [unconfirmed] at member
  cases member

theorem decided_of_unnamed {pairs : List (LoginInput × LoginInput)}
    (first : ∀ given ∈ pairs.map Prod.fst, given.input = [])
    (second : ∀ given ∈ pairs.map Prod.snd, given.input = []) : Decided sha256 pairs := by
  have sends := (login_of_unnamed sha256 first).1
  have parsed := passwordAndReplies_of_unnamed (List.forall_mem_map.mpr first)
  apply decided_of_unconfirmed
  · rw [loginSends, sends, loginSends, (login_of_unnamed sha256 second).1, List.flatMap_map,
      List.flatMap_map]
  · rw [loginSends, sends]
    exact (unfinished_namingAnswer.repeated _).1
  · simp only [confirmedPassword, parsed]

variable {blanks between : List (LoginInput × LoginInput)}
  {user password : LoginInput × LoginInput}
  (first : Opened (blanks.map Prod.fst) user.1 (between.map Prod.fst))
  (second : Opened (blanks.map Prod.snd) user.2 (between.map Prod.snd))
include first second

theorem decided_of_named : Decided sha256 (blanks ++ user :: between) := by
  have sends := loginSends_of_named sha256 first.blank first.named first.stillBlank
  have sendsToo := loginSends_of_named sha256 second.blank second.named second.stillBlank
  have parsed := passwordAndReplies_of_named (List.forall_mem_map.mpr first.blank) first.named
    (List.forall_mem_map.mpr first.stillBlank)
  apply decided_of_unconfirmed
  · simp only [List.map_append, List.map_cons, sends, sendsToo, List.flatMap_map]
  · rw [List.map_append, List.map_cons, sends]
    exact ((unfinished_namingAnswer.repeated _).append
      (unfinished_namingAnswer.append (unfinished_choosingAnswer.repeated _))).1
  · simp only [confirmedPassword, List.map_append, List.map_cons, parsed]

variable (chosen : password.1.input ≠ []) (chosenToo : password.2.input ≠ [])
include chosen chosenToo

/-- None of the replies repeats the password on its side. -/
theorem decided_of_mismatched {replies : List (LoginInput × LoginInput)}
    (differ : ∀ given ∈ replies.map Prod.fst, given.input ≠ password.1.input)
    (differToo : ∀ given ∈ replies.map Prod.snd, given.input ≠ password.2.input) :
    Decided sha256 (blanks ++ user :: (between ++ password :: replies)) := by
  have sends := (login_of_chosen sha256 first.blank first.named first.stillBlank password.1
    (replies.map Prod.fst)).1
  have sendsToo := (login_of_chosen sha256 second.blank second.named second.stillBlank
    password.2 (replies.map Prod.snd)).1
  rw [(login_of_mismatches sha256 first.named chosen differ).1] at sends
  rw [(login_of_mismatches sha256 second.named chosenToo differToo).1] at sendsToo
  have parsed := passwordAndReplies_of_opened first chosen (replies.map Prod.fst)
  have absent : password.1.input ∉ (replies.map Prod.fst).map LoginInput.input := by
    rw [List.mem_map]
    intro holds
    rcases holds with ⟨given, member, equal⟩
    exact differ given member equal
  apply decided_of_unconfirmed
  · simp only [List.map_append, List.map_cons, sends, sendsToo, openingSends, List.flatMap_map]
  · simp only [List.map_append, List.map_cons, sends]
    exact ((unfinished_openingSends _ _).append (unfinished_mismatchAnswer.repeated _)).1
  · simp only [List.map_append, List.map_cons] at parsed absent ⊢
    simp only [confirmedPassword, parsed, if_neg absent]

section Completed

variable {mismatches late : List (LoginInput × LoginInput)}
  {confirming : LoginInput × LoginInput}
  (differ : ∀ given ∈ mismatches.map Prod.fst, given.input ≠ password.1.input)
  (differToo : ∀ given ∈ mismatches.map Prod.snd, given.input ≠ password.2.input)
  (equal : confirming.1.input = password.1.input)
  (equalToo : confirming.2.input = password.2.input)
include differ differToo equal equalToo

omit sha256 in
theorem namedFirst_of_completed :
    NamedFirstAndLateRepliesAgree
        ((blanks.map Prod.fst ++ user.1 :: (between.map Prod.fst ++ password.1 ::
          (mismatches.map Prod.fst ++ confirming.1 :: late.map Prod.fst))).map LoginInput.input)
        ((blanks.map Prod.snd ++ user.2 :: (between.map Prod.snd ++ password.2 ::
          (mismatches.map Prod.snd ++ confirming.2 :: late.map Prod.snd))).map
            LoginInput.input) ↔
      blanks = [] ∧ ∀ pair ∈ late,
        (pair.1.input = LoginController.scrubPassword password.1.input ↔
          pair.2.input = LoginController.scrubPassword password.2.input) := by
  have read := read_of_completed first chosen differ equal (late.map Prod.fst)
  have readToo := read_of_completed second chosenToo differToo equalToo (late.map Prod.snd)
  have head : ((blanks.map Prod.fst ++ user.1 :: (between.map Prod.fst ++ password.1 ::
      (mismatches.map Prod.fst ++ confirming.1 :: late.map Prod.fst))).map
        LoginInput.input).head? ≠ some [] ↔ blanks = [] := by
    cases blanks with
    | nil => simpa using first.named
    | cons pair rest =>
        have empty : pair.1.input = [] := first.blank pair.1 (by simp)
        simp [empty]
  simp only [NamedFirstAndLateRepliesAgree, read.1, read.2, readToo.1, readToo.2, head,
    Option.mem_some_iff, forall_eq', List.forall₂_map_left_iff, List.forall₂_map_right_iff,
    List.forall₂_same]

/-- The same reply repeats the password on both sides. -/
theorem decided_of_completed
    (sameUser : blanks = [] → user.1.input = user.2.input) :
    Decided sha256
      (blanks ++ user :: (between ++ password :: (mismatches ++ confirming :: late))) := by
  have shown := published_of_completed sha256 first chosen differ equal (late.map Prod.fst)
  have shownToo :=
    published_of_completed sha256 second chosenToo differToo equalToo (late.map Prod.snd)
  have names := names_of_completed sha256 first chosen differ equal (late.map Prod.fst)
  have namesToo :=
    names_of_completed sha256 second chosenToo differToo equalToo (late.map Prod.snd)
  have openly := openly_of_completed sha256 first chosen differ equal (late.map Prod.fst)
  have openlyToo :=
    openly_of_completed sha256 second chosenToo differToo equalToo (late.map Prod.snd)
  have lateEqual := published_lateAnswers_eq_iff sha256 user.2.input
    (LoginController.scrubPassword password.1.input)
    (LoginController.scrubPassword password.2.input) late
  have side : ∀ project : LoginInput × LoginInput → LoginInput,
      (blanks ++ user :: (between ++ password :: (mismatches ++ confirming :: late))).map
          project =
        blanks.map project ++ project user :: (between.map project ++ project password ::
          (mismatches.map project ++ project confirming :: late.map project)) := by
    intro project
    simp only [List.map_append, List.map_cons]
  have opening : openingSends (blanks.map Prod.fst) (between.map Prod.fst) =
      openingSends (blanks.map Prod.snd) (between.map Prod.snd) := by
    simp only [openingSends, List.flatMap_map]
  have waiting : (mismatches.map Prod.fst).flatMap (fun _ => mismatchAnswer) =
      (mismatches.map Prod.snd).flatMap (fun _ => mismatchAnswer) := by
    simp only [List.flatMap_map]
  rw [Decided, side, side,
    namedFirst_of_completed first second chosen chosenToo differ differToo equal equalToo]
  constructor
  · intro view
    have noBlanks : blanks = [] := by simpa using openly.mp view.firstOpenly
    have published := view.published
    rw [shown, shownToo, opening, waiting, sameUser noBlanks] at published
    exact ⟨noBlanks, lateEqual.mp (List.append_cancel_left published)⟩
  · intro holds
    rcases holds with ⟨noBlanks, agree⟩
    refine ⟨?_, ?_, openly.mpr (by simp [noBlanks]), openlyToo.mpr (by simp [noBlanks])⟩
    · rw [shown, shownToo, opening, waiting, sameUser noBlanks, lateEqual.mpr agree]
    · rw [names, namesToo, sameUser noBlanks, List.flatMap_map, List.flatMap_map]
      congr 1
      apply List.flatMap_congr
      intro pair member
      simp only [agree pair member]

end Completed

end Pairs

/-- Two histories that differ only in what is typed at password prompts look
the same exactly when, if they complete, the user name came first and the later
inputs repeat the scrubbed passwords alike. -/
theorem sameView_iff_namedFirst (sha256 : ByteString → ByteString)
    {first second : List LoginInput} (secrets : DifferInSecrets sha256 first second) :
    SameView sha256 first second ↔
      NamedFirstAndLateRepliesAgree (first.map LoginInput.input)
        (second.map LoginInput.input) := by
  obtain ⟨pairs, rfl, rfl⟩ : ∃ pairs : List (LoginInput × LoginInput),
      pairs.map Prod.fst = first ∧ pairs.map Prod.snd = second :=
    ⟨first.zip second, List.map_fst_zip secrets.length.le, List.map_snd_zip secrets.length.ge⟩
  have agree := (differInSecrets_iff_patternsAgree sha256 pairs).mp secrets
  cases Course.of (fun pair : LoginInput × LoginInput => pair.1.input) pairs with
  | unnamed blank =>
      exact decided_of_unnamed sha256 (agree.blank_sides (fun _ member => member) blank).1
        (agree.blank_sides (fun _ member => member) blank).2
  | @named blanks between user blank named stillBlank =>
      have opened := agree.opened_sides (fun _ member => member) blank named stillBlank
      exact decided_of_named sha256 opened.1 opened.2
  | @chosen blanks between replies user password blank named stillBlank chosen =>
      have behind : ∀ pair ∈ password :: replies, pair ∈ between ++ password :: replies :=
        fun pair member => List.mem_append_right between member
      have front : ∀ pair ∈ blanks ++ user :: between,
          pair ∈ blanks ++ user :: (between ++ password :: replies) := by
        intro pair member
        rw [List.mem_append, List.mem_cons] at member ⊢
        rw [List.mem_append]
        tauto
      have opened := agree.opened_sides front blank named stillBlank
      have chosenToo : password.2.input ≠ [] := fun empty =>
        chosen ((agree.blank_everywhere (by simp)).mpr empty)
      have repeats : ∀ reply ∈ replies,
          (reply.1.input = password.1.input ↔ reply.2.input = password.2.input) :=
        fun reply member => agree.equal reply
          (mem_tail_of_mem_behind (behind reply (List.mem_cons_of_mem _ member))) password
          (mem_tail_of_mem_behind (behind password List.mem_cons_self))
      rcases List.none_or_first (fun pair => pair.1.input = password.1.input) replies with
        differ | ⟨mismatches, confirming, late, rfl, equal, differ⟩
      · apply decided_of_mismatched sha256 opened.1 opened.2 chosen chosenToo
        · exact List.forall_mem_map.mpr differ
        · exact List.forall_mem_map.mpr fun reply member equal =>
            differ reply member ((repeats reply member).mpr equal)
      · apply decided_of_completed sha256 opened.1 opened.2 chosen chosenToo
        · exact List.forall_mem_map.mpr differ
        · exact List.forall_mem_map.mpr fun reply member same =>
            differ reply member ((repeats reply (by simp [member])).mpr same)
        · exact equal
        · exact (repeats confirming (by simp)).mp equal
        · intro same
          subst same
          exact agree.head user rfl

/-- Logins with the same user name, by a password given twice. -/
def plainLogins : List (LoginInput × LoginInput) :=
  [(text "nick", text "nick"), (text "a", text "b"), (text "a", text "b")].map fun typed =>
    (⟨typed.1, Security.zeroDraws⟩, ⟨typed.2, Security.zeroDraws⟩)

theorem sameView_of_plainLogins :
    SameView Security.sampleSha256 (plainLogins.map Prod.fst) (plainLogins.map Prod.snd) := by
  have secrets := (differInSecrets_iff_patternsAgree Security.sampleSha256 plainLogins).mpr
    ⟨by decide, by decide, by decide⟩
  apply (sameView_iff_namedFirst Security.sampleSha256 secrets).mpr
  intro password _ other _
  exact ⟨by decide, .nil⟩

/-- An empty user name is accepted, so that the reply to "enter password" becomes
the user name. -/
def emptyNameLogins : List (LoginInput × LoginInput) :=
  [([], []), (text "secret", text "hidden"), (text "p", text "p"), (text "p", text "p")].map
    fun typed => (⟨typed.1, Security.zeroDraws⟩, ⟨typed.2, Security.zeroDraws⟩)

theorem not_sameView_of_emptyNameLogins :
    DifferInSecrets Security.sampleSha256 (emptyNameLogins.map Prod.fst)
        (emptyNameLogins.map Prod.snd) ∧
      ¬ SameView Security.sampleSha256 (emptyNameLogins.map Prod.fst)
        (emptyNameLogins.map Prod.snd) := by
  refine ⟨(differInSecrets_iff_patternsAgree _ _).mpr ⟨by decide, by decide, by decide⟩, ?_⟩
  intro view
  have names := view.names
  revert names
  decide

end Pmud.Controllers
