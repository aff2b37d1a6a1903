import Mathlib.Data.List.Perm.Basic
import Pmud.Foundation.ActorSystem
import Pmud.Net.ConnectionActor
import Pmud.Net.ServerActor

/-! # Main, the server and the connections

The main thread of `main.cpp` from the start of the server to its end, the
server actor, the connection actors it spawns and the registry they put
themselves in. The actors behind a connection only talk to it.
-/

namespace Pmud.System

open Pmud.Foundation Pmud.Net

/-- The actors of the process. Connections and the command actors behind them
are numbered in the order they are spawned; `runtime` stands for the actors of
the actor system itself. -/
inductive Role
  | main
  | server
  | connection (serial : Nat)
  | command (serial : Nat)
  | runtime
  deriving DecidableEq, Repr

/-- Whom an actor means, seen from the connection with this number. -/
def Role.of (serial : Nat) : ActorId → Role
  | .main => .main
  | .server => .server
  | .connection => .connection serial
  | _ => .command serial

/-- Where `run` stands. In `quitting` the registry entries still to be visited
are listed, and `finished` carries the result. -/
inductive MainPhase
  | starting
  | waiting
  | quitting (todo : List (String × Role))
  | killing
  | finished (result : Bool)
  deriving DecidableEq

/-- A name matches `Connection\\([0-9]+\\)`. -/
def matchesConnectionRegex (name : String) : Bool :=
  let opening := "Connection(".toList
  let rest := name.toList.drop opening.length
  let digits := rest.takeWhile Char.isDigit
  name.toList.take opening.length = opening && digits ≠ [] &&
    rest.drop digits.length = [')']

structure ShutdownState where
  phase : MainPhase
  server : ServerActor
  serverExited : Bool
  /-- In the order they were spawned. -/
  connections : List ConnectionActor
  exited : Nat → Bool
  registry : List (String × Role)
  /-- The largest actor id given out so far. -/
  lastId : Nat

/-- The outside during one turn. The new actor's id is the `skipped` + 1-st after
the last one. -/
structure ShutdownAnswers where
  server : ServerAnswers
  skipped : Nat
  sends : List (Option Nat)
  peeked : Int
  reading : Option ReadBytes

def ShutdownAnswers.socket (answers : ShutdownAnswers) : Socket where
  sends := answers.sends
  peeked := answers.peeked
  reading := answers.reading

/-- What is not set off by a message: the interrupt, after which main copies the
registry in some order, main's next visit, main's time running out, and the
output of a command actor. -/
inductive ShutdownMove
  | interrupt (entries : List (String × Role))
  | visit
  | timeout
  | output (serial : Nat) (emission : Message)

namespace ShutdownState

/-- `actor_registry::put` -/
def put (registry : List (String × Role)) (name : String) (actor : Role) :
    List (String × Role) :=
  (name, actor) :: registry.filter fun entry => entry.1 ≠ name

/-- `actor_registry::erase` -/
def erase (registry : List (String × Role)) (name : String) : List (String × Role) :=
  registry.filter fun entry => entry.1 ≠ name

/-- Spawning a connection actor: its constructor registers it. -/
def spawn (state : ShutdownState) (skipped : Nat) (descriptor : Descriptor) :
    ShutdownState :=
  let id := state.lastId + skipped + 1
  { state with
    connections := state.connections ++ [.create id ⟨descriptor.1, descriptor.2⟩]
    registry := put state.registry (ConnectionActor.registeryName id)
      (.connection state.connections.length)
    lastId := id }

def running (state : ShutdownState) : Role → Bool
  | .server => !state.serverExited
  | .connection serial => !state.exited serial
  | .runtime => false
  | .command _ => false
  | .main => true

/-- The responses main waits for in `start_server` and `kill_server`. -/
def mainReceives (phase : MainPhase) : Message → MainPhase
  | .serverStarted status =>
      if phase = .starting then if status ≠ 0 then .finished false else .waiting else phase
  | .serverStopped _ => if phase = .killing then .finished true else phase
  | _ => phase

def serverReceives (state : ShutdownState) (answers : ShutdownAnswers) (message : Message) :
    ShutdownState × List (Role × Message) :=
  let reaction := state.server.receive answers.server message
  let sends := reaction.sends.map fun sent =>
    (Role.of state.connections.length sent.1, sent.2)
  let next := { state with server := reaction.actor }
  match reaction.accepted with
  | none => (next, sends)
  | some descriptor => (next.spawn answers.skipped descriptor, sends)

def connectionReceives (state : ShutdownState) (serial : Nat) (actor : ConnectionActor)
    (answers : ShutdownAnswers) (message : Message) : ShutdownState × List (Role × Message) :=
  let reaction := actor.receive answers.socket message
  ({ state with
      connections := state.connections.set serial reaction.actor
      registry :=
        if reaction.erased then erase state.registry actor.registeryId else state.registry },
    reaction.sends.map fun sent => (Role.of serial sent.1, sent.2))

def react (state : ShutdownState) (receiver : Role) (answers : ShutdownAnswers)
    (message : Message) : ShutdownState × List (Role × Message) :=
  match receiver with
  | .main => ({ state with phase := mainReceives state.phase message }, [])
  | .server =>
      if message = .exit then ({ state with serverExited := true }, [])
      else state.serverReceives answers message
  | .connection serial =>
      if message = .exit then
        ({ state with exited := fun other => other = serial || state.exited other },
          ConnectionActor.onExit.map fun sent => (Role.of serial sent.1, sent.2))
      else
        match state.connections[serial]? with
        | none => (state, [])
        | some actor => state.connectionReceives serial actor answers message
  | _ => (state, [])

/-- A step of the loop in `quit_connection_actors`, or the request behind it. -/
def visit (state : ShutdownState) : Option (ShutdownState × Role × List (Role × Message)) :=
  match state.phase with
  | .quitting ((name, actor) :: rest) =>
      some ({ state with phase := .quitting rest }, .main,
        if matchesConnectionRegex name then [(actor, .goodbyeConnection)] else [])
  | .quitting [] => some ({ state with phase := .killing }, .main, [(.server, .goodbyeServer)])
  | _ => none

def move (state : ShutdownState) :
    ShutdownMove → Option (ShutdownState × Role × List (Role × Message))
  | .interrupt entries =>
      if state.phase = .waiting ∧ entries.Perm state.registry then
        some ({ state with phase := .quitting entries }, .main, [])
      else
        none
  | .visit => state.visit
  | .timeout =>
      match state.phase with
      | .starting => some ({ state with phase := .waiting }, .main, [])
      | .killing => some ({ state with phase := .finished false }, .main, [])
      | _ => none
  | .output serial emission =>
      match emission with
      | .toUserEmit _ | .toUserPrompt _ =>
          if serial < state.connections.length then
            some (state, .command serial, [(.connection serial, emission)])
          else
            none
      | _ => none

/-- The moves, one by one, with the phase each belongs to. -/
inductive Moves (state : ShutdownState) :
    ShutdownMove → ShutdownState → Role → List (Role × Message) → Prop
  | interrupt {entries : List (String × Role)} (waiting : state.phase = .waiting)
      (copied : entries.Perm state.registry) :
      Moves state (.interrupt entries) { state with phase := .quitting entries } .main []
  | tell {name : String} {actor : Role} {rest : List (String × Role)}
      (quitting : state.phase = .quitting ((name, actor) :: rest))
      (connection : matchesConnectionRegex name = true) :
      Moves state .visit { state with phase := .quitting rest } .main
        [(actor, .goodbyeConnection)]
  | skip {name : String} {actor : Role} {rest : List (String × Role)}
      (quitting : state.phase = .quitting ((name, actor) :: rest))
      (other : matchesConnectionRegex name = false) :
      Moves state .visit { state with phase := .quitting rest } .main []
  | kill (visited : state.phase = .quitting []) :
      Moves state .visit { state with phase := .killing } .main [(.server, .goodbyeServer)]
  | startTimeout (starting : state.phase = .starting) :
      Moves state .timeout { state with phase := .waiting } .main []
  | killTimeout (killing : state.phase = .killing) :
      Moves state .timeout { state with phase := .finished false } .main []
  | output {serial : Nat} {emission : Message} (within : serial < state.connections.length)
      (emits : (∃ text, emission = .toUserEmit text) ∨ ∃ text, emission = .toUserPrompt text) :
      Moves state (.output serial emission) state (.command serial)
        [(.connection serial, emission)]

theorem moves_of_move {state after : ShutdownState} {chosen : ShutdownMove} {actor : Role}
    {sends : List (Role × Message)} (moved : state.move chosen = some (after, actor, sends)) :
    state.Moves chosen after actor sends := by
  cases chosen with
  | interrupt entries =>
      simp only [move, Option.ite_none_right_eq_some, Option.some.injEq, Prod.mk.injEq] at moved
      rcases moved with ⟨⟨waiting, copied⟩, rfl, rfl, rfl⟩
      exact .interrupt waiting copied
  | visit =>
      simp only [move, visit] at moved
      split at moved
      · next quitting =>
        simp only [Option.some.injEq, Prod.mk.injEq] at moved
        rcases moved with ⟨rfl, rfl, rfl⟩
        split
        · next connection => exact .tell quitting connection
        · next other => exact .skip quitting (Bool.eq_false_iff.mpr other)
      · next visited =>
        simp only [Option.some.injEq, Prod.mk.injEq] at moved
        rcases moved with ⟨rfl, rfl, rfl⟩
        exact .kill visited
      · cases moved
  | timeout =>
      simp only [move] at moved
      split at moved
      · next starting =>
        simp only [Option.some.injEq, Prod.mk.injEq] at moved
        rcases moved with ⟨rfl, rfl, rfl⟩
        exact .startTimeout starting
      · next killing =>
        simp only [Option.some.injEq, Prod.mk.injEq] at moved
        rcases moved with ⟨rfl, rfl, rfl⟩
        exact .killTimeout killing
      · cases moved
  | output serial emission =>
      simp only [move] at moved
      split at moved
      · simp only [Option.ite_none_right_eq_some, Option.some.injEq, Prod.mk.injEq] at moved
        rcases moved with ⟨within, rfl, rfl, rfl⟩
        exact .output within (.inl ⟨_, rfl⟩)
      · simp only [Option.ite_none_right_eq_some, Option.some.injEq, Prod.mk.injEq] at moved
        rcases moved with ⟨within, rfl, rfl, rfl⟩
        exact .output within (.inr ⟨_, rfl⟩)
      · cases moved

end ShutdownState

def shutdown : ActorSystem Role Message ShutdownState ShutdownAnswers ShutdownMove where
  running := ShutdownState.running
  react := ShutdownState.react
  move := ShutdownState.move

abbrev ShutdownConfiguration := ActorSystem.Configuration Role Message ShutdownState

abbrev ShutdownEvent := ActorSystem.Event Role ShutdownAnswers ShutdownMove

/-- `run` has spawned the server and sent its first request. The registry holds
names of the actor system's own. -/
def openShutdown (names : List String) (lastId : Nat) : ShutdownConfiguration where
  state :=
    { phase := .starting
      server := .create
      serverExited := false
      connections := []
      exited := fun _ => false
      registry := names.map fun name => (name, .runtime)
      lastId := lastId }
  mail := ActorSystem.post (fun _ => .empty) .main [(.server, .startServer)]

end Pmud.System
