import Pmud.System.ServerStart

/-! # Main and the server agree

The start goes through stages, by what has become of main's request.
-/

namespace Pmud.System

open Pmud.Foundation Pmud.Net

/-! ## The stages of the start -/

/-- What the start is about: main's phase, the server's socket and calls, the
messages that wait at the server, from main and from itself, and the answers. -/
structure StartView where
  phase : MainPhase
  sockfd : Int
  calls : List ServerCall
  asked : List Message
  own : List Message
  answers : List Message

def startView (run : StartRun) : StartView where
  phase := run.1.state.phase
  sockfd := run.1.state.server.sockfd
  calls := run.2
  asked := (run.1.mail .server .main).pending
  own := (run.1.mail .server .server).pending
  answers := (run.1.mail .main .server).history

structure Serving (view : StartView) : Prop where
  told : .serverStarted 0 ∈ view.answers
  opened : 0 < view.sockfd
  listening : Listening view.calls view.sockfd
  idle : view.asked = []
  accepting : view.own = [.acceptConnection]

inductive StartStage (view : StartView) : Prop
  | unstarted (phase : view.phase = .starting) (sockfd : view.sockfd = 0)
      (calls : view.calls = []) (asked : view.asked = [.startServer]) (own : view.own = [])
      (answers : view.answers = [])
  | failed (phase : view.phase = .starting ∨ view.phase = .finished false)
      (sockfd : view.sockfd < 0) (calls : ∀ descriptor, .socket descriptor ∈ view.calls →
        descriptor < 0) (asked : view.asked = []) (own : view.own = [])
      (answers : ∀ status, .serverStarted status ∈ view.answers → status ≠ 0)
  | started (asked : .startServer ∉ view.asked)
      (answers : ∀ status, .serverStarted status ∈ view.answers → status = 0)
      (live : view.phase.beforeCopy = true → Serving view)

namespace StartStage

variable {view : StartView}

/-- The reply is the first thing main hears of. -/
theorem mainReceives (stage : StartStage view) {message : Message}
    (answer : ∀ status, message = .serverStarted status → message ∈ view.answers) :
    StartStage { view with phase := ShutdownState.mainReceives view.phase message } := by
  cases stage with
  | unstarted phase sockfd calls asked own answers =>
      refine .unstarted ?_ sockfd calls asked own answers
      cases message with
      | serverStarted status =>
          have said := answer status rfl
          rw [answers] at said
          cases said
      | _ => simp [ShutdownState.mainReceives, phase]
  | failed phase sockfd calls asked own answers =>
      refine .failed ?_ sockfd calls asked own answers
      cases message with
      | serverStarted status =>
          have bad := answers status (answer status rfl)
          rcases phase with starting | finished
          · simp [ShutdownState.mainReceives, starting, bad]
          · simp [ShutdownState.mainReceives, finished]
      | serverStopped status =>
          rcases phase with starting | finished
          · simp [ShutdownState.mainReceives, starting]
          · simp [ShutdownState.mainReceives, finished]
      | _ => exact phase
  | started asked answers live =>
      refine .started asked answers fun early => ?_
      have before : view.phase.beforeCopy = true := by
        cases message with
        | serverStarted status =>
            simp only [ShutdownState.mainReceives] at early
            split at early
            · next starting =>
              rw [starting]
              rfl
            · exact early
        | serverStopped status =>
            simp only [ShutdownState.mainReceives] at early
            split at early
            · cases early
            · exact early
        | _ => exact early
      have serving := live before
      exact ⟨serving.told, serving.opened, serving.listening, serving.idle, serving.accepting⟩

/-- Main leaves the first two phases for good, and asks for no second start. -/
theorem of_main_move (stage : StartStage view) {phase : MainPhase} {more : List Message}
    (fresh : .startServer ∉ more) (begun : view.phase ≠ .starting)
    (onward : view.phase ≠ .finished false) (past : phase.beforeCopy = false) :
    StartStage { view with phase := phase, asked := view.asked ++ more } := by
  cases stage with
  | unstarted starting => exact absurd starting begun
  | failed phase =>
      rcases phase with starting | finished
      · exact absurd starting begun
      · exact absurd finished onward
  | started asked answers live =>
      refine .started ?_ answers fun early => ?_
      · rw [List.mem_append, not_or]
        exact ⟨asked, fresh⟩
      · rw [past] at early
        cases early

/-- A request that ends with an error while the server has its socket. -/
theorem of_early_timeout (stage : StartStage view) (starting : view.phase = .starting)
    (opened : 0 < view.sockfd) : StartStage { view with phase := .waiting } := by
  cases stage with
  | unstarted phase sockfd => omega
  | failed phase sockfd => omega
  | started asked answers live =>
      refine .started asked answers fun early => ?_
      have serving := live (by rw [starting]; rfl)
      exact ⟨serving.told, serving.opened, serving.listening, serving.idle, serving.accepting⟩

end StartStage

section Step

variable {run next : StartRun}

/-- A turn of an actor that neither main nor the server listens to here. -/
theorem startView_of_apart {receiver sender : Role} {answers : ShutdownAnswers}
    {message : Message} (notMain : receiver ≠ .main) (notServer : receiver ≠ .server)
    (handled : ActorSystem.Handled shutdown run.1 next.1 receiver sender answers message)
    (state : next.1.state.phase = run.1.state.phase ∧ next.1.state.server = run.1.state.server)
    (record : next.2 = run.2) : startView next = startView run := by
  have waiting : ∀ source, source ≠ receiver →
      (next.1.mail .server source).pending = (run.1.mail .server source).pending := by
    intro source other
    rw [handled.turn.pending (handled.elsewhere _ _ fun same => notServer same.1.symm),
      if_neg other, List.append_nil]
  have answers : (next.1.mail .main .server).history = (run.1.mail .main .server).history := by
    rw [handled.turn.histories, if_neg (Ne.symm notServer), List.append_nil]
  simp only [startView, state.1, state.2, record, waiting _ (Ne.symm notMain),
    waiting _ (Ne.symm notServer), answers]

theorem startView_of_main {sender : Role} {answers : ShutdownAnswers} {message : Message}
    (handled : ActorSystem.Handled shutdown run.1 next.1 .main sender answers message)
    (record : next.2 = run.2) : startView next =
      { startView run with
        phase := ShutdownState.mainReceives run.1.state.phase message } := by
  have silent : (shutdown.react run.1.state .main answers message).2 = [] := rfl
  have waiting : ∀ source,
      (next.1.mail .server source).pending = (run.1.mail .server source).pending := by
    intro source
    rw [handled.turn.pending (handled.elsewhere _ _ (by simp)), silent]
    simp
  have answers : (next.1.mail .main .server).history = (run.1.mail .main .server).history := by
    rw [handled.turn.histories, silent]
    simp
  have state := RegistryInvariant.state_of_handled handled
  simp only [startView, waiting, answers, record, state, ShutdownState.react]

theorem startView_of_move {chosen : ShutdownMove} {actor : Role} {sends : List (Role × Message)}
    (moved : ActorSystem.Moved shutdown run.1 next.1 chosen actor sends)
    (notServer : actor ≠ .server) (record : next.2 = run.2) : startView next =
      { startView run with
        phase := next.1.state.phase
        asked := (startView run).asked ++
          if actor = .main then addressedTo sends .server else [] } := by
  rcases move_frame moved.moved with ⟨⟨phase, state⟩, -⟩
  have own : (next.1.mail .server .server).pending = (run.1.mail .server .server).pending := by
    rw [moved.turn.pending (moved.received _ _), if_neg (Ne.symm notServer), List.append_nil]
  have asked := moved.turn.pending (moved.received .server .main)
  have answers : (next.1.mail .main .server).history = (run.1.mail .main .server).history := by
    rw [moved.turn.histories, if_neg (Ne.symm notServer), List.append_nil]
  simp only [startView, own, asked, answers, record, state, eq_comm]

/-! ### The server's turns -/

theorem react_server_phase (state : ShutdownState) (answers : ShutdownAnswers)
    (message : Message) : (state.react .server answers message).1.phase = state.phase := by
  simp only [ShutdownState.react]
  split
  · rfl
  · simp only [ShutdownState.serverReceives]
    split
    · rfl
    · rfl

theorem react_server_receive (state : ShutdownState) (answers : ShutdownAnswers)
    {message : Message} (ordinary : message ≠ .exit) :
    (state.react .server answers message).1.server =
        (state.server.receive answers.server message).actor ∧
      (state.react .server answers message).2 =
        (state.server.receive answers.server message).sends.map fun sent =>
          (Role.of state.connections.length sent.1, sent.2) := by
  simp only [ShutdownState.react, if_neg ordinary]
  refine ⟨?_, state.serverReceives_sends answers message⟩
  simp only [ShutdownState.serverReceives]
  split
  · rfl
  · rfl

section ServerTurn

variable {sender : Role} {answers : ShutdownAnswers} {message : Message}
  (handled : ActorSystem.Handled shutdown run.1 next.1 .server sender answers message)
include handled

theorem asked_of_server : ∃ rest, (startView next).asked = rest ∧
    (startView run).asked = if sender = .main then message :: rest else rest := by
  by_cases own : sender = .main
  · subst own
    rcases handled.pending with ⟨rest, waiting, left⟩
    exact ⟨rest, by simpa [startView] using left, by simpa [startView] using waiting⟩
  · refine ⟨_, rfl, ?_⟩
    have quiet := handled.elsewhere .server .main fun same => own same.2.symm
    have untouched := handled.turn.pending quiet
    rw [if_neg own]
    simpa [startView] using untouched.symm

theorem own_of_server : ∃ rest,
    (startView run).own = (if sender = .server then message :: rest else rest) ∧
      (startView next).own = rest ++
        addressedTo (run.1.state.react .server answers message).2 .server := by
  by_cases own : sender = .server
  · subst own
    rcases handled.pending with ⟨rest, waiting, left⟩
    exact ⟨rest, by simpa [startView] using waiting, left⟩
  · refine ⟨_, (if_neg own).symm, ?_⟩
    exact handled.turn.pending (handled.elsewhere .server .server fun same => own same.2.symm)

theorem answers_of_server : (startView next).answers = (startView run).answers ++
    addressedTo (run.1.state.react .server answers message).2 .main :=
  handled.turn.histories .main .server

theorem phase_of_server : (startView next).phase = (startView run).phase := by
  have state := RegistryInvariant.state_of_handled handled
  simp only [startView, state, react_server_phase]

theorem calls_of_server (ordinary : message ≠ .exit)
    (record : next.2 = run.2 ++ serverCalls run.1 (.handle .server sender answers)) :
    (startView next).calls = (startView run).calls ++
        (run.1.state.server.receive answers.server message).calls ∧
      (startView next).sockfd =
        (run.1.state.server.receive answers.server message).actor.sockfd := by
  have state := RegistryInvariant.state_of_handled handled
  simp only [serverCalls, handled.waited, if_neg ordinary] at record
  refine ⟨record, ?_⟩
  simp only [startView, state, (react_server_receive run.1.state answers ordinary).1]

/-- The first turn of the server decides about the start. -/
theorem start_of_server (phase : (startView run).phase = .starting)
    (calls : (startView run).calls = []) (own : (startView run).own = [])
    (answered : (startView run).answers = []) (asked : (startView run).asked = [.startServer])
    (fromMain : sender = .main) (startable : message = .startServer → Startable answers.server)
    (record : next.2 = run.2 ++ serverCalls run.1 (.handle .server sender answers)) :
    StartStage (startView next) := by
  subst fromMain
  rcases asked_of_server handled with ⟨restAsked, askedNext, askedBefore⟩
  rcases own_of_server handled with ⟨restOwn, ownBefore, ownNext⟩
  rw [if_pos rfl, asked, List.cons.injEq] at askedBefore
  rcases askedBefore with ⟨rfl, rfl⟩
  rw [if_neg (by simp), own] at ownBefore
  subst ownBefore
  have turn := react_server_receive run.1.state answers (show Message.startServer ≠ .exit by simp)
  have answersNext := answers_of_server handled
  rcases calls_of_server handled (by simp) record with ⟨callsNext, sockfd⟩
  rw [turn.2] at ownNext answersNext
  rw [calls] at callsNext
  rw [answered] at answersNext
  simp only [ServerActor.receive] at ownNext answersNext callsNext sockfd
  have phaseNext := (phase_of_server handled).trans phase
  rcases startServer_of_startable answers.server (startable rfl) with
    ⟨reaction, number⟩ | ⟨reaction, opened, bound, listens⟩
  · rw [reaction] at ownNext answersNext callsNext sockfd
    refine .failed (.inl phaseNext) ?_ ?_ askedNext ?_ ?_
    · simp [sockfd]
    · simp [callsNext]
    · simpa [addressedTo, Role.of] using ownNext
    · intro status member
      rw [answersNext] at member
      simp only [addressedTo, Role.of, List.map_cons, List.map_nil, List.nil_append,
        List.mem_map, List.mem_filter, List.mem_singleton] at member
      rcases member with ⟨sent, ⟨rfl, -⟩, same⟩
      cases same
      exact number
  · rw [reaction] at ownNext answersNext callsNext sockfd
    have told : (startView next).answers = [.serverStarted 0] := by
      simpa [addressedTo, Role.of] using answersNext
    refine .started (by simp [askedNext]) ?_ fun _ => ⟨?_, ?_, ?_, askedNext, ?_⟩
    · intro status member
      rw [told, List.mem_singleton] at member
      cases member
      rfl
    · simp [told]
    · rw [sockfd]
      exact opened
    · rw [callsNext, sockfd]
      exact ⟨by simp, ⟨_, bound, by simp⟩, ⟨_, listens, by simp⟩⟩
    · simpa [addressedTo, Role.of] using ownNext

/-- A server that has started goes on to accept, as long as main waits. -/
theorem serving_of_server (serving : Serving (startView run))
    (source : StartSource sender .server message)
    (record : next.2 = run.2 ++ serverCalls run.1 (.handle .server sender answers)) :
    Serving (startView next) := by
  rcases asked_of_server handled with ⟨restAsked, askedNext, askedBefore⟩
  rcases own_of_server handled with ⟨restOwn, ownBefore, ownNext⟩
  have itself : sender = .server := by
    rcases source.toServer rfl with main | itself
    · rw [if_pos main, serving.idle] at askedBefore
      cases askedBefore
    · exact itself
  subst itself
  rw [if_pos rfl, serving.accepting, List.cons.injEq] at ownBefore
  rcases ownBefore with ⟨rfl, rfl⟩
  rw [if_neg (by simp), serving.idle] at askedBefore
  have turn := react_server_receive run.1.state answers
    (show Message.acceptConnection ≠ .exit by simp)
  rcases calls_of_server handled (by simp) record with ⟨callsNext, sockfd⟩
  rcases acceptConnection_again run.1.state.server answers.server serving.opened with
    ⟨same, welcomes, sends, connections⟩
  simp only [ServerActor.receive] at turn callsNext sockfd
  rw [same] at sockfd
  have silent : addressedTo (welcomes.map fun sent =>
      (Role.of run.1.state.connections.length sent.1, sent.2)) Role.server = [] := by
    rw [List.eq_nil_iff_forall_not_mem]
    intro content member
    rcases List.mem_map.mp (mem_addressedTo.mp member) with ⟨sent, inside, equal⟩
    have connection := connections sent inside
    simp [connection, Role.of] at equal
  rw [turn.2, sends, List.map_append] at ownNext
  refine ⟨?_, ?_, ?_, askedNext.trans askedBefore.symm, ?_⟩
  · rw [answers_of_server handled]
    exact List.mem_append_left _ serving.told
  · rw [sockfd]
    exact serving.opened
  · rcases serving.listening with ⟨opened, ⟨bound, good, binds⟩, ⟨result, well, listens⟩⟩
    rw [callsNext, sockfd]
    exact ⟨List.mem_append_left _ opened, ⟨bound, good, List.mem_append_left _ binds⟩,
      ⟨result, well, List.mem_append_left _ listens⟩⟩
  · unfold addressedTo at silent ownNext
    rw [List.filter_append, List.map_append, silent] at ownNext
    simpa [Role.of] using ownNext

theorem StartStage.of_server (stage : StartStage (startView run))
    (source : StartSource sender .server message)
    (startable : message = .startServer → Startable answers.server)
    (record : next.2 = run.2 ++ serverCalls run.1 (.handle .server sender answers)) :
    StartStage (startView next) := by
  rcases asked_of_server handled with ⟨restAsked, askedNext, askedBefore⟩
  rcases own_of_server handled with ⟨restOwn, ownBefore, ownNext⟩
  cases stage with
  | unstarted phase sockfd calls asked own answered =>
      have fromMain : sender = .main := by
        rcases source.toServer rfl with main | itself
        · exact main
        · rw [if_pos itself, own] at ownBefore
          cases ownBefore
      exact start_of_server handled phase calls own answered asked fromMain startable record
  | failed phase sockfd calls asked own answered =>
      exfalso
      rcases source.toServer rfl with main | itself
      · rw [if_pos main, asked] at askedBefore
        cases askedBefore
      · rw [if_pos itself, own] at ownBefore
        cases ownBefore
  | started asked answered live =>
      have notStart : message ≠ .startServer := by
        intro same
        rw [if_pos (source.start same), same] at askedBefore
        rw [askedBefore] at asked
        exact asked List.mem_cons_self
      refine .started ?_ ?_ fun early => ?_
      · intro member
        rw [askedNext] at member
        apply asked
        rw [askedBefore]
        split
        · exact List.mem_cons_of_mem _ member
        · exact member
      · intro status member
        rw [answers_of_server handled, List.mem_append] at member
        rcases member with before | now
        · exact answered status before
        · exfalso
          by_cases ending : message = .exit
          · subst ending
            cases now
          · rw [(react_server_receive run.1.state answers ending).2] at now
            rcases List.mem_map.mp (mem_addressedTo.mp now) with ⟨⟨actor, content⟩, sent, equal⟩
            simp only [Prod.mk.injEq] at equal
            rw [equal.2] at sent
            exact notStart (server_reports _ _ _ sent)
      · rw [phase_of_server handled] at early
        exact serving_of_server handled (live early) source record

end ServerTurn

end Step

/-! ## Every run -/

structure StartInvariant (run : StartRun) : Prop where
  sources : ActorSystem.Conforms StartSource run.1
  stage : StartStage (startView run)

namespace StartInvariant

variable {run next : StartRun}

theorem stage_of_move {chosen : ShutdownMove} {actor : Role} {sends : List (Role × Message)}
    (stage : StartStage (startView run)) (inTime : StartsInTime run (.move chosen))
    (moved : ActorSystem.Moved shutdown run.1 next.1 chosen actor sends)
    (record : next.2 = run.2) : StartStage (startView next) := by
  -- a move of main that is not the end of the first wait
  have ofMain {phase : MainPhase} (own : actor = .main)
      (state : next.1.state = { run.1.state with phase := phase })
      (fresh : .startServer ∉ addressedTo sends .server)
      (begun : run.1.state.phase ≠ .starting) (onward : run.1.state.phase ≠ .finished false)
      (past : phase.beforeCopy = false) : StartStage (startView next) := by
    subst own
    rw [startView_of_move moved (by simp) record, if_pos rfl]
    apply stage.of_main_move fresh begun onward
    rw [state]
    exact past
  have moves := ShutdownState.moves_of_move moved.moved
  generalize after : next.1.state = state at moves
  cases moves with
  | interrupt waiting copied =>
      exact ofMain rfl after List.not_mem_nil (by simp [waiting]) (by simp [waiting]) rfl
  | tell quitting connection =>
      exact ofMain rfl after (by simp [mem_addressedTo]) (by simp [quitting]) (by simp [quitting])
        rfl
  | skip quitting other =>
      exact ofMain rfl after List.not_mem_nil (by simp [quitting]) (by simp [quitting]) rfl
  | kill visited =>
      exact ofMain rfl after (by simp [mem_addressedTo]) (by simp [visited]) (by simp [visited])
        rfl
  | startTimeout starting =>
      rw [startView_of_move moved (by simp) record, if_pos rfl, addressedTo_nil, List.append_nil,
        after]
      exact stage.of_early_timeout starting (inTime starting)
  | killTimeout killing =>
      exact ofMain rfl after List.not_mem_nil (by simp [killing]) (by simp [killing]) rfl
  | output within emits =>
      rw [startView_of_move moved (by simp) record, if_neg (by simp), List.append_nil,
        after]
      exact stage

theorem connection_steady (state : ShutdownState) (serial : Nat) (answers : ShutdownAnswers)
    (message : Message) :
    (state.react (.connection serial) answers message).1.phase = state.phase ∧
      (state.react (.connection serial) answers message).1.server = state.server := by
  simp only [ShutdownState.react]
  split
  · exact ⟨rfl, rfl⟩
  · split
    · exact ⟨rfl, rfl⟩
    · exact ⟨rfl, rfl⟩

theorem stage_of_handled {receiver sender : Role} {answers : ShutdownAnswers} {message : Message}
    (invariant : StartInvariant run)
    (inTime : StartsInTime run (.handle receiver sender answers))
    (handled : ActorSystem.Handled shutdown run.1 next.1 receiver sender answers message)
    (record : next.2 = run.2 ++ serverCalls run.1 (.handle receiver sender answers)) :
    StartStage (startView next) := by
  have source := invariant.sources _ _ _ handled.mem_history
  cases receiver with
  | main =>
      rw [startView_of_main handled (record.trans (List.append_nil _))]
      apply invariant.stage.mainReceives
      intro status same
      have fromServer := source.report status same
      subst fromServer
      exact handled.mem_history
  | server =>
      exact invariant.stage.of_server handled source
        (fun same => inTime (same ▸ handled.waited)) record
  | connection serial =>
      have state := RegistryInvariant.state_of_handled handled
      have steady := connection_steady run.1.state serial answers message
      rw [startView_of_apart (by simp) (by simp) handled
        ⟨by rw [state, steady.1], by rw [state, steady.2]⟩ (record.trans (List.append_nil _))]
      exact invariant.stage
  | command serial => cases handled.running
  | runtime => cases handled.running

theorem step (invariant : StartInvariant run) {event : ShutdownEvent}
    (inTime : StartsInTime run event) (taken : startRun run event = some next) :
    StartInvariant next := by
  rcases (StepFunction.recording_eq_some _).mp taken with ⟨stepped, record⟩
  rcases ActorSystem.step_cases stepped with
    ⟨receiver, sender, answers, message, rfl, handled⟩ | ⟨chosen, actor, sends, rfl, moved⟩
  · exact ⟨invariant.sources.turn handled.turn (.of_react _ _ _ _),
      invariant.stage_of_handled inTime handled record⟩
  · exact ⟨invariant.sources.turn moved.turn (.of_move moved.moved),
      stage_of_move invariant.stage inTime moved (record.trans (List.append_nil _))⟩

theorem opening (names : List String) (lastId : Nat) :
    StartInvariant (openShutdown names lastId, []) where
  sources := by
    refine ActorSystem.Conforms.turn ?_ (.opening _ _ _) ?_
    · intro receiver sender message member
      cases member
    · intro sent member
      rw [List.mem_singleton.mp member]
      exact ⟨fun _ => .inl rfl, fun _ => rfl, nofun⟩
  stage := .unstarted rfl rfl rfl rfl rfl rfl

theorem agreement (invariant : StartInvariant run) : StartAgreement run := by
  cases invariant.stage with
  | unstarted phase sockfd calls asked own answers =>
      refine ⟨fun waiting => ?_, fun status bad told => ?_⟩
      · cases waiting.symm.trans phase
      · have none : .serverStarted status ∈ (startView run).answers := told
        rw [answers] at none
        cases none
  | failed phase sockfd calls asked own answers =>
      refine ⟨fun waiting => ?_, fun status bad told descriptor valid opened => ?_⟩
      · rcases phase with starting | finished
        · cases waiting.symm.trans starting
        · cases waiting.symm.trans finished
      · have negative := calls descriptor opened
        omega
  | started asked answers live =>
      refine ⟨fun waiting => ?_, fun status bad told => absurd (answers status told) bad⟩
      have serving := live (by simp [startView, waiting, MainPhase.beforeCopy])
      refine ⟨serving.told, Int.le_of_lt serving.opened, serving.listening, ?_⟩
      have accepting := serving.accepting
      simp only [startView] at accepting
      rw [accepting]
      exact List.mem_singleton_self _

end StartInvariant

theorem startAgreement_throughout (names : List String) (lastId : Nat)
    (events : List ShutdownEvent)
    (guarded : startRun.Guarded StartsInTime (openShutdown names lastId, []) events) :
    startRun.Throughout StartAgreement (openShutdown names lastId, []) events := by
  refine StepFunction.Throughout.mono _ (fun run => StartInvariant.agreement) ?_
  refine StepFunction.Guarded.throughout _ ?_ (.opening names lastId) guarded
  exact fun run event next invariant inTime taken => invariant.step inTime taken

theorem startAgreement_of_starting :
    startRun.Throughout StartAgreement (openShutdown [] 0, []) starting :=
  startAgreement_throughout [] 0 starting (by decide)

/-- Main's request runs out of time, and then the server cannot bind. -/
def lateStart : List ShutdownEvent := [
  .move .timeout,
  .handle .server .main { serving none with
    server := { socket := 3, bind := -1, listen := 0, errno := 98, accept := none } }]

theorem not_startAgreement_of_lateStart :
    ¬ startRun.Throughout StartAgreement (openShutdown [] 0, []) lateStart := by
  intro throughout
  have view : (startRun.execute (openShutdown [] 0, []) lateStart).map (fun run =>
      (run.1.state.phase, (run.1.mail .main .server).history, run.2)) =
        some (.waiting, [.serverStarted 98], [.socket 3, .bind 3 (-1)]) := by
    decide
  rcases Option.map_eq_some_iff.mp view with ⟨final, reached, equal⟩
  simp only [Prod.mk.injEq] at equal
  rcases equal with ⟨waiting, answers, -⟩
  have told := ((throughout.final _ reached).waiting waiting).1
  rw [answers] at told
  simp at told

end Pmud.System
