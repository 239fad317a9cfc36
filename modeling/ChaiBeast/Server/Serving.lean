import ChaiBeast.Server.HandOver
import ChaiBeast.Server.Pool

namespace ChaiBeast.Server

open Data Data.Transition Http Routing

/-! A running server: the accept chain on the `io_context` and the clients on
the thread pool, in any interleaving.  A client is started by the hand-over of
its connection. -/

/-- What undefined behavior does to the process is not known, and the run ends
there. -/
def completionSurvives (completion : Completion Fault α) : Bool :=
  !completion.error?.any Fault.undefined

/-- Whether the process is still there behind the last stage of a job.  An
exception that leaves `handleClientRequest` terminates it in `start_detached`. -/
def Job.survives : Job → Bool
  | .ready => true
  | .requested completion => completionSurvives completion
  | .answered completion => completionSurvives completion
  | .sent completion => completionSurvives completion
  | .finished completion => completion.error?.isNone

structure Serving (σ θ : Type) where
  chain : Chain
  pool : Pool σ θ Nat
  running : Bool := true

inductive ServingEvent where
  | accept (event : Event)
  | stage (event : PoolEvent Nat)
deriving Repr, DecidableEq

/-- The event of the pool, if it is one. -/
def ServingEvent.stage? : ServingEvent → Option (PoolEvent Nat)
  | .accept _ => none
  | .stage event => some event

variable {σ θ F : Type}

def Pool.start (shared : θ) (streams : ι → σ) : Pool σ θ ι :=
  ⟨shared, fun conn => { stream := streams conn }⟩

namespace Serving

def start (shared : θ) (streams : Nat → σ) : Serving σ θ :=
  { chain := {}, pool := Pool.start shared streams }

def step (server : ServerSetup σ θ F) (serving : Serving σ θ) (event : ServingEvent) :
    Option (Serving σ θ) :=
  if serving.running then
    match event with
    | .accept event =>
        (Server.step server.streamMaker serving.chain event).map fun chain => { serving with chain }
    | .stage event =>
        if event.conn ∈ serving.chain.handed then
          (serving.pool.step server event).map fun pool =>
            { serving with pool, running := (pool.clients event.conn).job.survives }
        else none
  else none

end Serving

/-- What a client has seen fits its job. -/
def Client.InOrder (client : Client σ) : Prop :=
  match client.job with
  | .ready => client.calls = []
  | .requested _ | .answered _ => client.calls = [.read]
  | .sent (.value _) => ∃ resp, client.calls = [.read, .write resp]
  | .sent _ | .finished _ => ∃ resp, client.calls <+: [.read, .write resp, .close]

section Stages

variable {server : ServerSetup σ θ F} {stage : Stage} {client next : Client σ} {shared after : θ}

theorem answerRequest_calls (completion : Completion Fault VariantRequest) (session : Session σ θ) :
    (server.answerRequest (.completed completion) session).2.calls = session.calls := by
  have begun : Sender.Triple (fun start : Session σ θ => start.calls = session.calls)
      (.completed completion) ⟨fun _ after => after.calls = session.calls,
        fun _ after => after.calls = session.calls, fun after => after.calls = session.calls⟩ :=
    Sender.triple_uniform_iff.mpr fun _ kept => kept
  have selected : Sender.Triple (fun start : Session σ θ => start.calls = session.calls)
      (server.selectForwarder (.completed completion))
      ⟨fun _ after => after.calls = session.calls, fun _ after => after.calls = session.calls,
        fun after => after.calls = session.calls⟩ := by
    refine begun.andThen fun req after kept => ?_
    cases server.router.getForwarder req.target <;> exact kept
  refine Sender.triple_uniform_iff.mp (handleError_spec (selected.andThen fun pair after kept => ?_)
    (fun _ _ _ kept _ => kept) fun _ _ kept _ => kept) session rfl
  obtain ⟨handler, req⟩ := pair
  cases handler with
  | none => exact kept
  | some handler => cases (server.router.forward handler req after.shared).1 <;> exact kept

/-- The calls of the last stage. -/
def closing : Completion Fault Unit → List StreamCall
  | .value _ => [.close]
  | .error _ | .stopped => []

theorem finishRequest_calls (completion : Completion Fault Unit) (session : Session σ θ) :
    (server.finishRequest (.completed completion) session).2.calls =
      session.calls ++ closing completion := by
  have begun : Sender.Triple (fun start : Session σ θ => start = session)
      (server.handleFinish (.completed completion))
      ⟨fun _ after => after.calls = session.calls ++ closing completion,
        fun _ after => after.calls = session.calls ++ closing completion,
        fun after => after.calls = session.calls ++ closing completion⟩ := by
    refine Sender.triple_uniform_iff.mpr fun start same => ?_
    subst same
    cases completion with
    | value _ => rfl
    | error _ | stopped => exact (List.append_nil _).symm
  exact Sender.triple_uniform_iff.mp (handleError_spec begun (fun _ _ _ kept _ => kept)
    fun _ _ kept _ => kept) session rfl

theorem Client.InOrder.advance (inOrder : client.InOrder)
    (advanced : client.advance server stage shared = some (next, after)) : next.InOrder := by
  obtain ⟨stream, calls, job⟩ := client
  match stage, job with
  | .read, .ready =>
      cases advanced
      rw [show calls = [] from inOrder]
      rfl
  | .answer, .requested completion =>
      cases advanced
      exact (answerRequest_calls completion _).trans inOrder
  | .send, .answered (.value resp) =>
      obtain rfl : calls = [.read] := inOrder
      have made : next = ⟨(server.calls.httpWrite resp stream).2, [.read, .write resp],
          .sent (.ofExcept (server.calls.httpWrite resp stream).1)⟩ := by
        cases advanced
        rfl
      rw [made]
      cases (server.calls.httpWrite resp stream).1 with
      | ok _ => exact ⟨resp, rfl⟩
      | error fault => exact ⟨resp, [.close], rfl⟩
  | .send, .answered (.error fault) | .send, .answered .stopped =>
      obtain rfl : calls = [.read] := inOrder
      cases advanced
      exact ⟨.emptybody ⟨0, 0, []⟩, _, rfl⟩
  | .finish, .sent (.value done) =>
      obtain ⟨resp, rfl⟩ := inOrder
      cases advanced
      exact ⟨resp, [], (List.append_nil _).trans (finishRequest_calls (.value done) _)⟩
  | .finish, .sent (.error fault) =>
      obtain ⟨resp, fits⟩ := inOrder
      have kept : (server.finishRequest (.completed (.error fault)) ⟨stream, shared, calls⟩).2.calls <+:
          [.read, .write resp, .close] := by
        simpa [finishRequest_calls, closing] using fits
      cases advanced
      exact ⟨resp, kept⟩
  | .finish, .sent .stopped =>
      obtain ⟨resp, fits⟩ := inOrder
      have kept : (server.finishRequest (.completed .stopped) ⟨stream, shared, calls⟩).2.calls <+:
          [.read, .write resp, .close] := by
        simpa [finishRequest_calls, closing] using fits
      cases advanced
      exact ⟨resp, kept⟩
  | .read, .requested _ | .read, .answered _ | .read, .sent _ | .read, .finished _
  | .answer, .ready | .answer, .answered _ | .answer, .sent _ | .answer, .finished _
  | .send, .ready | .send, .requested _ | .send, .sent _ | .send, .finished _
  | .finish, .ready | .finish, .requested _ | .finish, .answered _ | .finish, .finished _ =>
      cases advanced

end Stages

/-- Only connections that the chain handed over have been touched. -/
structure Serving.Ordered (serving : Serving σ θ) : Prop where
  accounted : serving.chain.Accounted
  started : ∀ conn, (serving.pool.clients conn).job ≠ .ready → conn ∈ serving.chain.handed
  inOrder : ∀ conn, (serving.pool.clients conn).InOrder

namespace Serving

variable {server : ServerSetup σ θ F} {serving next : Serving σ θ} {event : ServingEvent}

theorem Ordered.initial {shared : θ} {streams : Nat → σ} : (start shared streams).Ordered :=
  ⟨.initial, fun _ started => absurd rfl started, fun _ => rfl⟩

/-- What a step of a server does. -/
theorem step_inv (taken : step server serving event = some next) :
    serving.running = true ∧
      ((∃ accepted chain, event = .accept accepted ∧
          Server.step server.streamMaker serving.chain accepted = some chain ∧
          next = { serving with chain }) ∨
        ∃ staged client shared, event = .stage staged ∧ staged.conn ∈ serving.chain.handed ∧
          (serving.pool.clients staged.conn).advance server staged.stage serving.pool.shared =
            some (client, shared) ∧
          next = { serving with
            pool := ⟨shared, Function.update serving.pool.clients staged.conn client⟩
            running := client.job.survives }) := by
  simp only [step, Option.ite_none_right_eq_some] at taken
  obtain ⟨running, taken⟩ := taken
  refine ⟨running, ?_⟩
  match event with
  | .accept accepted =>
      obtain ⟨chain, accepting, rfl⟩ := Option.map_eq_some_iff.mp taken
      exact .inl ⟨accepted, chain, rfl, accepting, rfl⟩
  | .stage staged =>
      simp only [Option.ite_none_right_eq_some, Option.map_eq_some_iff] at taken
      obtain ⟨handed, pool, stepped, rfl⟩ := taken
      obtain ⟨client, shared, advanced, rfl⟩ := Pool.step_cases stepped
      exact .inr ⟨staged, client, shared, rfl, handed, advanced, by simp⟩

theorem handed_grows {maker : StreamMaker} {chain next : Chain} {event : Event}
    (taken : Server.step maker chain event = some next) : chain.handed <+: next.handed := by
  have spawned : ∀ (chain : Chain) (next : Except Fault Coroutine),
      (chain.spawn next).handed = chain.handed := by
    intro chain next
    cases next <;> rfl
  obtain ⟨coroutine, -, resumed⟩ := step_cases taken
  unfold resume Chain.handshaken at resumed
  split at resumed <;> cases resumed <;> simp [spawned]

theorem Ordered.preserved (ordered : serving.Ordered)
    (taken : step server serving event = some next) : next.Ordered := by
  obtain ⟨-, ⟨accepted, chain, -, accepting, rfl⟩ | ⟨staged, client, shared, -, handed, advanced, rfl⟩⟩ :=
    step_inv taken
  · refine ⟨ordered.accounted.preserved accepting, ?_, ordered.inOrder⟩
    exact fun conn touched => (handed_grows accepting).subset (ordered.started conn touched)
  · refine ⟨ordered.accounted, fun conn touched => ?_, fun conn => ?_⟩
    · by_cases mine : conn = staged.conn
      · exact mine ▸ handed
      · exact ordered.started conn (by simpa [Function.update_of_ne mine] using touched)
    · by_cases mine : conn = staged.conn
      · subst mine
        simpa using (ordered.inOrder staged.conn).advance advanced
      · simpa [Function.update_of_ne mine] using ordered.inOrder conn

end Serving

/-- In every state of every run of a server, the connections on whose streams
anything was done were accepted, did not fail their handshake and were handed
over once; and each stream was read, then written to once, then closed, or has
got as far as that. -/
theorem clients_served_once (server : ServerSetup σ θ F) (shared : θ) (streams : Nat → σ)
    (events : List ServingEvent) :
    Always (Serving.step server) (fun serving => ∀ conn,
      (serving.pool.clients conn).calls ≠ [] →
        conn < serving.chain.accepted ∧ conn ∉ serving.chain.failed ∧
        serving.chain.handed.count conn = 1 ∧
        ∃ resp, (serving.pool.clients conn).calls <+: [.read, .write resp, .close])
      (Serving.start shared streams) events := by
  apply always_of_invariant
  · exact fun _ _ _ ordered taken => Serving.Ordered.preserved ordered taken
  · intro serving ordered conn touched
    have inOrder := ordered.inOrder conn
    have handed : conn ∈ serving.chain.handed := by
      refine ordered.started conn fun ready => touched ?_
      rwa [Client.InOrder, ready] at inOrder
    have served := ordered.accounted.served
    have admitted : conn ∈ serving.chain.admitted := by
      rw [← served]
      exact List.mem_append_left _ handed
    have once : serving.chain.handed.Nodup :=
      (served ▸ serving.chain.admitted_nodup).sublist (List.sublist_append_left _ _)
    refine ⟨?_, ?_, List.count_eq_one_of_mem once handed, ?_⟩
    · exact List.mem_range.mp (List.mem_of_mem_filter admitted)
    · simpa using List.of_mem_filter admitted
    · unfold Client.InOrder at inOrder
      split at inOrder
      · exact absurd inOrder touched
      · exact ⟨.emptybody ⟨0, 0, []⟩, by rw [inOrder]; exact ⟨_, rfl⟩⟩
      · exact ⟨.emptybody ⟨0, 0, []⟩, by rw [inOrder]; exact ⟨_, rfl⟩⟩
      · obtain ⟨resp, calls⟩ := inOrder
        exact ⟨resp, by rw [calls]; exact ⟨_, rfl⟩⟩
      · exact inOrder
      · exact inOrder
  · exact .initial

/-- The pool of a server runs on the events of the stages alone. -/
theorem Serving.run_pool {server : ServerSetup σ θ F} {start last : Serving σ θ}
    {events : List ServingEvent} (ran : run (step server) start events = some last) :
    run (Pool.step server) start.pool (events.filterMap ServingEvent.stage?) = some last.pool := by
  refine run_simulates Serving.pool (fun _ => True) (fun _ _ _ _ _ => trivial) ?_ trivial ran
  intro serving event next _ taken
  obtain ⟨-, ⟨accepted, chain, rfl, -, rfl⟩ | ⟨staged, client, shared, rfl, -, advanced, rfl⟩⟩ :=
    step_inv taken
  · rfl
  · simp [ServingEvent.stage?, Pool.step, advanced]

/-- However the clients interleave, once none is in between, the server is as
if it had handled them one after the other, in the order in which their
handlers were called, and each was sent what was due at its turn. -/
theorem server_serializable (server : ServerSetup σ θ F) (shared : θ) (streams : Nat → σ)
    {events : List ServingEvent} {last : Serving σ θ}
    (ran : run (Serving.step server) (Serving.start shared streams) events = some last)
    (quiet : ∀ conn, (last.pool.clients conn).job = .ready ∨
      ∃ done, (last.pool.clients conn).job = .finished done) :
    let order := Pool.answerOrder (events.filterMap ServingEvent.stage?)
    let start : Pool σ θ Nat := Pool.start shared streams
    order.Nodup ∧
      (∀ conn, conn ∈ order ↔ ∃ done, (last.pool.clients conn).job = .finished done) ∧
      last.pool = order.foldl (Pool.handle server) start ∧
      ∀ front conn back, order = front ++ conn :: back →
        (last.pool.clients conn).calls = server.exchange
          ⟨streams conn, (front.foldl (Pool.handle server) start).shared, []⟩ := by
  have fresh : ∀ conn, ((Pool.start shared streams).clients conn).job = .ready := fun _ => rfl
  obtain ⟨distinct, finished, serial⟩ := Pool.pool_serializable fresh (Serving.run_pool ran) quiet
  refine ⟨distinct, finished, serial, fun front conn back shape => ?_⟩
  rw [serial, shape, Pool.foldl_handle_calls (shape ▸ distinct)]
  rfl

/-- A server whose handlers count their calls. -/
def countingServer : ServerSetup Unit Nat Unit where
  streamMaker := .tcp
  calls :=
    { httpRead := fun _ => ((⟨.get, "/count".toList, 11, [], by decide⟩, none), ())
      httpWrite := fun _ _ => (.ok (), ())
      shutdown := id
      close := fun _ => (.ok (), ()) }
  router :=
    { getForwarder := fun _ => .ok (some ())
      forward := fun _ _ count => (.ok (.emptybody ⟨200, count, []⟩), count + 1) }
  outOfRange := "basic_string::substr".toList

theorem server_serializable_two :
    let accept (signal : Signal) : ServingEvent := .accept ⟨0, signal⟩
    let events : List ServingEvent :=
      [accept .start, accept (.accepted none .unfinished), accept .start, accept .start,
        accept (.accepted none .unfinished), .stage ⟨0, .read⟩, accept .start, .stage ⟨1, .read⟩,
        .stage ⟨1, .answer⟩, .stage ⟨0, .answer⟩, .stage ⟨0, .send⟩, .stage ⟨1, .send⟩,
        .stage ⟨1, .finish⟩, .stage ⟨0, .finish⟩]
    ∃ last, run (Serving.step countingServer) (Serving.start 0 fun _ => ()) events = some last ∧
      last.pool = [1, 0].foldl (Pool.handle countingServer) (Pool.start 0 fun _ => ()) := by
  intro accept events
  refine ⟨_, rfl, ?_⟩
  refine (@server_serializable Unit Nat Unit countingServer 0 (fun _ => ()) events _ rfl ?_).2.2.1
  intro conn
  match conn with
  | 0 | 1 => exact .inr ⟨.value (), rfl⟩
  | _ + 2 => exact .inl rfl

/-- The stages that a client has left, while the process is there. -/
theorem Serving.run_finish (server : ServerSetup σ θ F) (serving : Serving σ θ) {conn : Nat}
    (running : serving.running = true) (handed : conn ∈ serving.chain.handed) :
    ∃ (stages : List Stage) (after : Serving σ θ),
      run (step server) serving (stages.map fun stage => .stage ⟨conn, stage⟩) = some after ∧
      (after.pool.clients conn).job.behind = (serving.pool.clients conn).job.behind ++ stages ∧
      ((∃ done, (after.pool.clients conn).job = .finished done) ∨ after.running = false) ∧
      after.chain = serving.chain ∧
      ∀ other, other ≠ conn → after.pool.clients other = serving.pool.clients other := by
  obtain ⟨remaining, measured⟩ :=
    Nat.exists_eq_add_of_le (serving.pool.clients conn).job.behind_prefix.length_le
  induction remaining generalizing serving with
  | zero =>
      refine ⟨[], serving, rfl, (List.append_nil _).symm, .inl ?_, rfl, fun _ _ => rfl⟩
      match phase : (serving.pool.clients conn).job with
      | .finished done => exact ⟨done, rfl⟩
      | .ready | .requested _ | .answered _ | .sent _ => simp [phase, Job.behind] at measured
  | succ remaining ih =>
      have unfinished : ∀ done, (serving.pool.clients conn).job ≠ .finished done := by
        intro done finished
        simp [finished, Job.behind] at measured
      obtain ⟨stage, client, shared, advanced⟩ :=
        Client.advance_enabled server (serving.pool.clients conn) serving.pool.shared unfinished
      let next : Serving σ θ := { serving with
        pool := ⟨shared, Function.update serving.pool.clients conn client⟩
        running := client.job.survives }
      have taken : step server serving (.stage ⟨conn, stage⟩) = some next := by
        simp [step, running, handed, Pool.step, advanced, next]
      have here : next.pool.clients conn = client := Function.update_self ..
      have behind := Client.advance_behind advanced
      have others : ∀ other, other ≠ conn → next.pool.clients other = serving.pool.clients other :=
        fun other different => Function.update_of_ne different ..
      by_cases survives : next.running = true
      · have closer : [Stage.read, .answer, .send, .finish].length =
            (next.pool.clients conn).job.behind.length + remaining := by
          rw [here, behind, List.length_append, List.length_singleton]
          omega
        obtain ⟨stages, after, ran, grown, ended, chain, kept⟩ := ih next survives handed closer
        refine ⟨stage :: stages, after, ?_, ?_, ended, chain, fun other different => ?_⟩
        · simp [run, taken, ran]
        · rw [grown, here, behind, List.append_assoc, List.singleton_append]
        · rw [kept other different, others other different]
      · refine ⟨[stage], next, ?_, ?_, .inr (by simpa using survives), rfl, others⟩
        · simp [run, taken]
        · rw [here, behind]

/-- No client waits for another one.  From every state in which the process is
there, what is left of the stages of a client leads to its end, whatever else is
going on, and leaves all other clients and the accepting as they are; unless one of
these stages is the end of the process. -/
theorem client_finishes (server : ServerSetup σ θ F) (serving : Serving σ θ) {conn : Nat}
    (running : serving.running = true) (handed : conn ∈ serving.chain.handed) :
    ∃ (stages : List Stage) (after : Serving σ θ),
      (serving.pool.clients conn).job.behind ++ stages <+: [.read, .answer, .send, .finish] ∧
      run (Serving.step server) serving (stages.map fun stage => .stage ⟨conn, stage⟩) = some after ∧
      ((∃ done, (after.pool.clients conn).job = .finished done) ∨ after.running = false) ∧
      after.chain = serving.chain ∧
      ∀ other, other ≠ conn → after.pool.clients other = serving.pool.clients other := by
  obtain ⟨stages, after, ran, grown, ended, kept⟩ := Serving.run_finish server serving running handed
  exact ⟨stages, after, grown ▸ (after.pool.clients conn).job.behind_prefix, ran, ended, kept⟩

theorem client_finishes_one :
    let accept (signal : Signal) : ServingEvent := .accept ⟨0, signal⟩
    ∃ reached, run (Serving.step countingServer) (Serving.start 0 fun _ => ())
        [accept .start, accept (.accepted none .unfinished), accept .start, .stage ⟨0, .read⟩] =
          some reached ∧
      ∃ (stages : List Stage) (after : Serving Unit Nat),
        [.read] ++ stages <+: [.read, .answer, .send, .finish] ∧
        run (Serving.step countingServer) reached (stages.map fun stage => .stage ⟨0, stage⟩) =
          some after ∧
        ((∃ done, (after.pool.clients 0).job = .finished done) ∨ after.running = false) := by
  intro accept
  let reached := (run (Serving.step countingServer) (Serving.start 0 fun _ => ())
    [accept .start, accept (.accepted none .unfinished), accept .start, .stage ⟨0, .read⟩]).get rfl
  obtain ⟨stages, after, left, ran, ended, -, -⟩ := @client_finishes Unit Nat Unit countingServer
    reached 0 rfl (List.mem_singleton.mpr rfl)
  exact ⟨reached, rfl, stages, after, left, ran, ended⟩

end ChaiBeast.Server
