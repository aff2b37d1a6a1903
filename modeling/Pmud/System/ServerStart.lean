import Pmud.System.Session
import Pmud.System.ShutdownRuns

/-! # The start of the server

Main asks the server to start and goes on to wait for the interrupt. What the
two should agree on, and who may say what about it.
-/

namespace Pmud.System

open Pmud.Foundation Pmud.Net

/-- The system calls the server makes in a turn. -/
def serverCalls (config : ShutdownConfiguration) : ShutdownEvent → List ServerCall
  | .handle .server sender answers =>
      match (config.mail .server sender).pending.head? with
      | none => []
      | some message =>
          if message = .exit then []
          else (config.state.server.receive answers.server message).calls
  | _ => []

/-- A run of the process with the system calls that the server has made. -/
abbrev StartRun := ShutdownConfiguration × List ServerCall

def startRun : StepFunction StartRun ShutdownEvent :=
  shutdown.step.recording serverCalls

/-- A descriptor on which `bind` and `listen` succeeded. -/
def Listening (calls : List ServerCall) (descriptor : Int) : Prop :=
  .socket descriptor ∈ calls ∧ (∃ result, 0 ≤ result ∧ .bind descriptor result ∈ calls) ∧
    ∃ result, 0 ≤ result ∧ .listen descriptor result ∈ calls

/-- Main waits only for a server that has started, and a server that could not
start leaves no descriptor open. -/
structure StartAgreement (run : StartRun) : Prop where
  waiting : run.1.state.phase = .waiting →
    .serverStarted 0 ∈ (run.1.mail .main .server).history ∧
      0 ≤ run.1.state.server.sockfd ∧ Listening run.2 run.1.state.server.sockfd ∧
      .acceptConnection ∈ (run.1.mail .server .server).pending
  failed : ∀ status ≠ 0, .serverStarted status ∈ (run.1.mail .main .server).history →
    ∀ descriptor ≥ 0, .socket descriptor ∈ run.2 → .close descriptor ∈ run.2

/-- Either there is no socket and the error has a number, or there is one, which
is not the standard input, and it can be bound and listened on. -/
def Startable (answers : ServerAnswers) : Prop :=
  answers.socket = -1 ∧ answers.errno ≠ 0 ∨
    0 < answers.socket ∧ 0 ≤ answers.bind ∧ 0 ≤ answers.listen

instance (answers : ServerAnswers) : Decidable (Startable answers) :=
  inferInstanceAs (Decidable (_ ∨ _))

/-- The server's calls go all well or fail at once, and main's request does not
end with an error before the server has a socket. -/
def StartsInTime (run : StartRun) : ShutdownEvent → Prop
  | .handle .server sender answers =>
      (run.1.mail .server sender).pending.head? = some .startServer → Startable answers.server
  | .move .timeout => run.1.state.phase = .starting → 0 < run.1.state.server.sockfd
  | _ => True

instance (run : StartRun) : ∀ event, Decidable (StartsInTime run event)
  | .handle .server sender answers =>
      inferInstanceAs (Decidable ((run.1.mail .server sender).pending.head? =
        some .startServer → Startable answers.server))
  | .handle .main _ _ => .isTrue trivial
  | .handle (.connection _) _ _ => .isTrue trivial
  | .handle (.command _) _ _ => .isTrue trivial
  | .handle .runtime _ _ => .isTrue trivial
  | .move .timeout =>
      inferInstanceAs (Decidable (run.1.state.phase = .starting →
        0 < run.1.state.server.sockfd))
  | .move (.interrupt _) => .isTrue trivial
  | .move .visit => .isTrue trivial
  | .move (.output _ _) => .isTrue trivial

/-! ## What the server sends -/

section Server

variable (server : ServerActor) (answers : ServerAnswers) (message : Message)

theorem server_starts_no_one :
    ∀ sent ∈ (server.receive answers message).sends, sent.2 ≠ .startServer := by
  cases message with
  | startServer =>
      simp only [ServerActor.receive, ServerActor.startServer]
      split
      · simp
      · split
        · simp
        · split
          · simp
          · simp
  | acceptConnection =>
      simp only [ServerActor.receive, ServerActor.acceptConnection]
      split
      · simp
      · split
        · simp
        · simp
  | _ => simp [ServerActor.receive, ServerActor.goodbyeServer]

theorem server_reports {actor : ActorId} {status : Int}
    (sent : (actor, .serverStarted status) ∈ (server.receive answers message).sends) :
    message = .startServer := by
  cases message with
  | startServer => rfl
  | acceptConnection =>
      simp only [ServerActor.receive, ServerActor.acceptConnection] at sent
      split at sent
      · cases sent
      · split at sent
        · simp at sent
        · simp at sent
  | _ => simp [ServerActor.receive, ServerActor.goodbyeServer] at sent

/-- The two ways in which the start may go. -/
theorem startServer_of_startable (startable : Startable answers) :
    (ServerActor.startServer answers =
        { actor := { sockfd := -1 }
          sends := [(.main, .serverStarted answers.errno)]
          calls := [.socket (-1)] } ∧ answers.errno ≠ 0) ∨
      (ServerActor.startServer answers =
        { actor := { sockfd := answers.socket }
          sends := [(.server, .acceptConnection), (.main, .serverStarted 0)]
          calls := [.socket answers.socket, .bind answers.socket answers.bind,
            .listen answers.socket answers.listen] } ∧
        0 < answers.socket ∧ 0 ≤ answers.bind ∧ 0 ≤ answers.listen) := by
  rcases startable with ⟨none, number⟩ | ⟨opened, bound, listens⟩
  · left
    exact ⟨by simp [ServerActor.startServer, none], number⟩
  · right
    refine ⟨?_, opened, bound, listens⟩
    have valid : answers.socket ≠ -1 := by omega
    simp only [ServerActor.startServer, if_neg valid, if_neg (Int.not_lt.mpr bound),
      if_neg (Int.not_lt.mpr listens)]
    rfl

/-- While it listens the server goes on to accept. -/
theorem acceptConnection_again (opened : 0 < server.sockfd) :
    (server.acceptConnection answers).actor = server ∧
      ∃ welcomes, (server.acceptConnection answers).sends =
        welcomes ++ [(.server, .acceptConnection)] ∧
          ∀ sent ∈ welcomes, sent.1 = ActorId.connection := by
  unfold ServerActor.acceptConnection
  rw [if_neg (Int.not_le.mpr opened)]
  cases answers.accept with
  | none => exact ⟨rfl, [], rfl, nofun⟩
  | some descriptor => exact ⟨rfl, [(.connection, .performWelcome)], rfl, by simp⟩

end Server

/-! ## Who talks to whom -/

/-- The server is told things by main, which alone tells it to start, and itself,
and only the server reports that it has started. -/
structure StartSource (sender receiver : Role) (message : Message) : Prop where
  toServer : receiver = .server → sender = .main ∨ sender = .server
  start : message = .startServer → sender = .main
  report : ∀ status, message = .serverStarted status → sender = .server

theorem StartSource.of_connection (serial : Nat) {sends : Sends}
    (spoken : ∀ sent ∈ sends, speaks .connection sent.1 sent.2 = true) :
    ∀ sent ∈ sends.map (fun sent => (Role.of serial sent.1, sent.2)),
      StartSource (.connection serial) sent.1 sent.2 := by
  intro sent member
  rcases List.mem_map.mp member with ⟨⟨actor, message⟩, inside, rfl⟩
  have said := spoken _ inside
  refine ⟨fun toServer => ?_, fun same => ?_, fun status same => ?_⟩
  · cases actor with
    | server => cases said
    | _ => cases toServer
  all_goals
    simp only at same
    subst same
    cases actor with
    | _ => cases said

theorem StartSource.of_server (state : ShutdownState) (answers : ShutdownAnswers)
    (message : Message) : ∀ sent ∈ (state.react .server answers message).2,
      StartSource .server sent.1 sent.2 := by
  intro sent member
  refine ⟨fun _ => .inr rfl, fun same => ?_, fun _ _ => rfl⟩
  simp only [ShutdownState.react] at member
  split at member
  · cases member
  · rw [ShutdownState.serverReceives_sends] at member
    rcases List.mem_map.mp member with ⟨inner, inside, rfl⟩
    exact absurd same (server_starts_no_one state.server answers.server message inner inside)

theorem StartSource.of_react (state : ShutdownState) (receiver : Role)
    (answers : ShutdownAnswers) (message : Message) :
    ∀ sent ∈ (state.react receiver answers message).2, StartSource receiver sent.1 sent.2 := by
  have silent : ∀ actor : Role, ∀ sent ∈ ([] : List (Role × Message)),
      StartSource actor sent.1 sent.2 := fun _ _ member => absurd member List.not_mem_nil
  cases receiver with
  | main => exact silent .main
  | server => exact .of_server state answers message
  | connection serial =>
      simp only [ShutdownState.react]
      split
      · exact .of_connection serial (by simp [ConnectionActor.onExit, speaks])
      · split
        · exact silent (.connection serial)
        · next actor found =>
          exact .of_connection serial (connection_speaks actor answers.socket message)
  | command serial => exact silent (.command serial)
  | runtime => exact silent .runtime

theorem StartSource.of_move {state after : ShutdownState} {chosen : ShutdownMove} {actor : Role}
    {sends : List (Role × Message)} (moved : state.move chosen = some (after, actor, sends)) :
    ∀ sent ∈ sends, StartSource actor sent.1 sent.2 := by
  have fromMain : ∀ receiver message, (∀ status, message ≠ .serverStarted status) →
      StartSource .main receiver message := by
    intro receiver message other
    exact ⟨fun _ => .inl rfl, fun _ => rfl, fun status same => absurd same (other status)⟩
  have silent : ∀ sent ∈ ([] : List (Role × Message)), StartSource actor sent.1 sent.2 :=
    fun _ member => absurd member List.not_mem_nil
  cases ShutdownState.moves_of_move moved with
  | interrupt waiting copied => exact silent
  | tell quitting connection => simp [fromMain]
  | skip quitting other => exact silent
  | kill visited => simp [fromMain]
  | startTimeout starting => exact silent
  | killTimeout killing => exact silent
  | output within emits =>
      intro sent member
      rw [List.mem_singleton.mp member]
      refine ⟨fun same => ?_, fun same => ?_, fun status same => ?_⟩
      · cases same
      · rcases emits with ⟨text, rfl⟩ | ⟨text, rfl⟩
        · cases same
        · cases same
      · rcases emits with ⟨text, rfl⟩ | ⟨text, rfl⟩
        · cases same
        · cases same

end Pmud.System
