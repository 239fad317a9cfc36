import Mathlib.Data.List.Dedup
import ChaiBeast.Data.Commuting
import ChaiBeast.Server.ClientRequest

namespace ChaiBeast.Server

open Data Data.Transition Http Routing

/-! The thread pool of `waitForAsyncConnection`.  Every client is handled by a
`handleClientRequest` of its own, and the stages of different clients interleave
in any order.  The handlers share a state, which a handler call reads and writes
in one step. -/

/-- How far the sender of a client is, with the completion of its last stage. -/
inductive Job where
  | ready
  | requested (completion : Completion Fault VariantRequest)
  | answered (completion : Completion Fault VariantResponse)
  | sent (completion : Completion Fault Unit)
  | finished (completion : Completion Fault Unit)
deriving Repr, DecidableEq

inductive Stage where
  | read
  | answer
  | send
  | finish
deriving Repr, DecidableEq

/-- The stages that are behind a job. -/
def Job.behind : Job → List Stage
  | .ready => []
  | .requested _ => [.read]
  | .answered _ => [.read, .answer]
  | .sent _ => [.read, .answer, .send]
  | .finished _ => [.read, .answer, .send, .finish]

theorem Job.behind_prefix (job : Job) : job.behind <+: [.read, .answer, .send, .finish] := by
  cases job <;> simp [behind]

structure Client (σ : Type) where
  stream : σ
  calls : List StreamCall := []
  job : Job := .ready
deriving Repr, DecidableEq

structure Pool (σ θ ι : Type) where
  shared : θ
  clients : ι → Client σ

structure PoolEvent (ι : Type) where
  conn : ι
  stage : Stage
deriving Repr, DecidableEq

variable {σ θ F ι : Type}

namespace Client

def session (client : Client σ) (shared : θ) : Session σ θ :=
  ⟨client.stream, shared, client.calls⟩

def ofSession (job : Job) (session : Session σ θ) : Client σ :=
  ⟨session.stream, session.calls, job⟩

/-- One stage of a client, over what the handlers share. -/
def advance (server : ServerSetup σ θ F) (stage : Stage) (client : Client σ) (shared : θ) :
    Option (Client σ × θ) :=
  let leave {α : Type} (job : Completion Fault α → Job) (sender : SessionSender σ θ α) :=
    let (completion, session) := sender (client.session shared)
    some (ofSession (job completion) session, session.shared)
  match stage, client.job with
  | .read, .ready => leave .requested server.handleRead
  | .answer, .requested completion => leave .answered (server.answerRequest (.completed completion))
  | .send, .answered completion => leave .sent (server.sendResponse (.completed completion))
  | .finish, .sent completion => leave .finished (server.finishRequest (.completed completion))
  | _, _ => none

end Client

namespace Pool

variable [DecidableEq ι] (server : ServerSetup σ θ F)

def step (pool : Pool σ θ ι) (event : PoolEvent ι) : Option (Pool σ θ ι) := do
  let (client, shared) ← (pool.clients event.conn).advance server event.stage pool.shared
  return { shared, clients := Function.update pool.clients event.conn client }

def put (pool : Pool σ θ ι) (conn : ι) (job : Job) (session : Session σ θ) : Pool σ θ ι :=
  { shared := session.shared
    clients := Function.update pool.clients conn (.ofSession job session) }

/-- A client is handled from start to end, without another one in between. -/
def handle (pool : Pool σ θ ι) (conn : ι) : Pool σ θ ι :=
  let (done, session) := server.handleClientRequest ((pool.clients conn).session pool.shared)
  pool.put conn (.finished done) session

/-- The clients in the order in which their handlers were called. -/
def answerOrder (events : List (PoolEvent ι)) : List ι :=
  (events.filter (·.stage = .answer)).map PoolEvent.conn

end Pool

section Stages

variable {server : ServerSetup σ θ F} {stage : Stage} {client next : Client σ} {shared after : θ}

theorem Client.advance_behind (advanced : client.advance server stage shared = some (next, after)) :
    next.job.behind = client.job.behind ++ [stage] := by
  unfold Client.advance at advanced
  dsimp only at advanced
  split at advanced
  case h_5 => cases advanced
  all_goals
    rename_i phase
    cases advanced
    rw [phase]
    rfl

theorem Client.advance_enabled (server : ServerSetup σ θ F) (client : Client σ) (shared : θ)
    (unfinished : ∀ done, client.job ≠ .finished done) :
    ∃ stage next after, client.advance server stage shared = some (next, after) := by
  obtain ⟨stream, calls, job⟩ := client
  match job with
  | .ready => exact ⟨.read, _, _, rfl⟩
  | .requested completion => exact ⟨.answer, _, _, rfl⟩
  | .answered completion => exact ⟨.send, _, _, rfl⟩
  | .sent completion => exact ⟨.finish, _, _, rfl⟩
  | .finished done => exact absurd rfl (unfinished done)

/-- A sender that works on the client's stream alone. -/
def Confined (sender : SessionSender σ θ α) : Prop :=
  ∀ session shared, sender { session with shared } =
    ((sender session).1, { (sender session).2 with shared })

namespace Confined

variable {sender : SessionSender σ θ α}

theorem completed (completion : Completion Fault α) :
    Confined (.completed completion : SessionSender σ θ α) := fun _ _ => rfl

theorem andThen {f : α → Session σ θ → Except Fault β × Session σ θ} (confined : Confined sender)
    (call : ∀ a session shared, f a { session with shared } =
      ((f a session).1, { (f a session).2 with shared })) : Confined (sender.andThen f) := by
  intro session shared
  rw [Sender.andThen_completed sender f { session with shared }, confined session shared,
    Sender.andThen_completed sender f session]
  cases (sender session).1 with
  | value a =>
      change (Completion.ofExcept (f a _).1, (f a _).2) = _
      rw [call]
      rfl
  | error fault => rfl
  | stopped => rfl

theorem handleError (outOfRange : CppString) (handler : CppString → α) (confined : Confined sender) :
    Confined (Server.handleError outOfRange handler sender) := by
  intro session shared
  unfold Server.handleError
  rw [Sender.letError_completed sender _ { session with shared }, confined session shared,
    Sender.letError_completed sender _ session]
  cases (sender session).1 with
  | value a => rfl
  | stopped => rfl
  | error fault =>
      cases named : what outOfRange fault <;>
        simp only [Sender.letError, Sender.completed, Sender.just, Sender.andThen, Sender.letValue,
          Sender.invoke, Completion.ofExcept, named]

theorem handleRead : Confined server.handleRead :=
  (completed (.value ())).andThen fun _ _ _ => rfl

theorem sendResponse {sender : SessionSender σ θ VariantResponse} (confined : Confined sender) :
    Confined (server.sendResponse sender) :=
  confined.andThen fun _ _ _ => rfl

theorem finishRequest {sender : SessionSender σ θ Unit} (confined : Confined sender) :
    Confined (server.finishRequest sender) :=
  handleError _ _ (confined.andThen fun _ _ _ => rfl)

end Confined

/-- Only the answering stage sees what the handlers share, and no other one
changes it. -/
theorem Client.advance_local (server : ServerSetup σ θ F) (quiet : stage ≠ .answer)
    (client : Client σ) (before : θ) :
    ∃ alone : Option (Client σ), ∀ shared,
      client.advance server stage shared = alone.map fun next => (next, shared) := by
  have confined : ∀ {α : Type} {sender : SessionSender σ θ α}, Confined sender → ∀ shared,
      sender (client.session shared) =
        ((sender (client.session before)).1, { (sender (client.session before)).2 with shared }) :=
    fun confined shared => confined (client.session before) shared
  refine ⟨(client.advance server stage before).map Prod.fst, fun shared => ?_⟩
  unfold Client.advance
  dsimp only
  split
  case h_1 => rw [confined .handleRead]; rfl
  case h_2 => exact absurd rfl quiet
  case h_3 completion _ => rw [confined (.sendResponse (.completed completion))]; rfl
  case h_4 completion _ => rw [confined (.finishRequest (.completed completion))]; rfl
  case h_5 => rfl

end Stages

namespace Pool

variable [DecidableEq ι] {server : ServerSetup σ θ F} {pool next start last : Pool σ θ ι}
  {event : PoolEvent ι} {events : List (PoolEvent ι)}

theorem step_cases (taken : step server pool event = some next) :
    ∃ client shared, (pool.clients event.conn).advance server event.stage pool.shared =
        some (client, shared) ∧
      next = { shared, clients := Function.update pool.clients event.conn client } := by
  obtain ⟨⟨client, shared⟩, advanced, same⟩ := Option.bind_eq_some_iff.mp taken
  exact ⟨client, shared, advanced, (Option.some.inj same).symm⟩

/-- Stages of different clients commute, unless both call a handler. -/
theorem step_commutes {first second : PoolEvent ι} (different : first.conn ≠ second.conn)
    (apart : first.stage ≠ .answer ∨ second.stage ≠ .answer) :
    Commutes (step server) first second := by
  have oneWay : ∀ first second : PoolEvent ι, first.conn ≠ second.conn → first.stage ≠ .answer →
      Commutes (step server) first second := by
    intro first second different quiet pool
    obtain ⟨alone, blind⟩ := Client.advance_local server quiet (pool.clients first.conn) pool.shared
    have secondKept := fun client : Client σ =>
      Function.update_of_ne (Ne.symm different) client pool.clients
    have firstKept := fun client : Client σ => Function.update_of_ne different client pool.clients
    cases alone with
    | none =>
        cases advanced : (pool.clients second.conn).advance server second.stage pool.shared <;>
          simp [step, blind, advanced, firstKept]
    | some firstNext =>
        cases advanced : (pool.clients second.conn).advance server second.stage pool.shared with
        | none => simp [step, blind, advanced, secondKept]
        | some result =>
            simp [step, blind, advanced, firstKept, secondKept, Function.update_comm different]
  rcases apart with quiet | quiet
  · exact oneWay first second different quiet
  · intro state
    exact (oneWay second first different.symm quiet state).symm

theorem run_behind (ran : run (step server) start events = some last) (conn : ι) :
    (last.clients conn).job.behind =
      (start.clients conn).job.behind ++
        (events.filter fun event => event.conn = conn).map PoolEvent.stage := by
  induction events generalizing start with
  | nil => cases ran; simp
  | cons event rest ih =>
      obtain ⟨next, taken, ran⟩ := run_cons_inv ran
      obtain ⟨client, shared, advanced, rfl⟩ := step_cases taken
      rw [ih ran]
      by_cases mine : event.conn = conn
      · subst mine
        simp [Client.advance_behind advanced]
      · simp [mine, Function.update_of_ne (Ne.symm mine)]

/-- The events of a client that starts anew are the stages behind its job. -/
theorem filter_conn (fresh : ∀ conn, (start.clients conn).job = .ready)
    (ran : run (step server) start events = some last) (conn : ι) :
    (events.filter fun event => event.conn = conn) =
      (last.clients conn).job.behind.map (PoolEvent.mk conn) := by
  have behind := run_behind ran conn
  rw [fresh conn, Job.behind, List.nil_append] at behind
  rw [behind, List.map_map]
  refine (List.map_congr_left (g := id) fun event member => ?_).trans (List.map_id _) |>.symm
  have mine : event.conn = conn := by simpa using List.of_mem_filter member
  simp [← mine]

theorem answerOrder_distinct (fresh : ∀ conn, (start.clients conn).job = .ready)
    (ran : run (step server) start events = some last) : (answerOrder events).Nodup := by
  refine List.nodup_iff_count_le_one.mpr fun conn => ?_
  have counted : (answerOrder events).count conn =
      ((events.filter fun event => event.conn = conn).map PoolEvent.stage).count .answer := by
    simp only [answerOrder, List.count, List.countP_map, List.countP_filter]
    refine List.countP_congr fun event _ => ?_
    simp [and_comm]
  rw [counted, filter_conn fresh ran, List.map_map]
  cases (last.clients conn).job <;> simp [Job.behind]

/-- Of two events that call handlers, the earlier one belongs to the client that
comes first in any order that continues the order of the calls. -/
theorem answers_ordered {order : List ι} (distinct : order.Nodup)
    (continues : answerOrder events <+: order) :
    events.Pairwise fun first later => first.stage = .answer → later.stage = .answer →
      order.idxOf first.conn < order.idxOf later.conn := by
  have ordered : order.Pairwise fun first later => order.idxOf first < order.idxOf later := by
    refine List.pairwise_iff_getElem.mpr fun i j within within' before => ?_
    rwa [distinct.idxOf_getElem i within, distinct.idxOf_getElem j within']
  have called := List.pairwise_map.mp (ordered.sublist continues.sublist)
  simpa using List.pairwise_filter.mp called

@[simp] theorem put_put (pool : Pool σ θ ι) (conn : ι) (job job' : Job) (session session' : Session σ θ) :
    (pool.put conn job session).put conn job' session' = pool.put conn job' session' := by
  simp [put]

theorem step_put {conn : ι} {job job' : Job} {session after : Session σ θ} {stage : Stage}
    (advanced : (Client.ofSession job session).advance server stage session.shared =
      some (.ofSession job' after, after.shared)) :
    step server (pool.put conn job session) ⟨conn, stage⟩ = some (pool.put conn job' after) := by
  have here : (pool.put conn job session).clients conn = Client.ofSession job session :=
    Function.update_self ..
  have shared : (pool.put conn job session).shared = session.shared := rfl
  simp only [step, here, shared, advanced]
  exact congrArg some (put_put pool conn job job' session after)

/-- The four stages of a client in a row are its `handleClientRequest`. -/
theorem run_handle (conn : ι) (ready : (pool.clients conn).job = .ready)
    (done : Completion Fault Unit) :
    run (step server) pool ((Job.finished done).behind.map (PoolEvent.mk conn)) =
      some (pool.handle server conn) := by
  let asked := server.handleRead ((pool.clients conn).session pool.shared)
  let answered := server.answerRequest (.completed asked.1) asked.2
  let sent := server.sendResponse (.completed answered.1) answered.2
  let finished := server.finishRequest (.completed sent.1) sent.2
  have first : step server pool ⟨conn, .read⟩ = some (pool.put conn (.requested asked.1) asked.2) := by
    simp [step, Client.advance, ready, put, asked]
  have second : step server (pool.put conn (.requested asked.1) asked.2) ⟨conn, .answer⟩ =
      some (pool.put conn (.answered answered.1) answered.2) := step_put rfl
  have third : step server (pool.put conn (.answered answered.1) answered.2) ⟨conn, .send⟩ =
      some (pool.put conn (.sent sent.1) sent.2) := step_put rfl
  have fourth : step server (pool.put conn (.sent sent.1) sent.2) ⟨conn, .finish⟩ =
      some (pool.put conn (.finished finished.1) finished.2) := step_put rfl
  simp only [Job.behind, List.map_cons, List.map_nil, run, first, second, third, fourth,
    Option.bind_some]
  rfl

/-- Every interleaving comes to the same as one in which each client does all
that it did in a row, the clients in the order in which their handlers were
called. -/
theorem runs_grouped (fresh : ∀ conn, (start.clients conn).job = .ready)
    (ran : run (step server) start events = some last) :
    ∃ order : List ι, order.Nodup ∧ answerOrder events <+: order ∧
      run (step server) start
        (order.flatMap fun conn => events.filter fun event => event.conn = conn) = some last := by
  let others := ((events.map PoolEvent.conn).filter fun conn => conn ∉ answerOrder events).dedup
  have distinct : (answerOrder events ++ others).Nodup := by
    refine List.nodup_append.mpr ⟨answerOrder_distinct fresh ran, List.nodup_dedup _, ?_⟩
    intro conn member other inOthers same
    subst same
    have absent := List.of_mem_filter (List.mem_dedup.mp inOthers)
    simp [member] at absent
  have continues : answerOrder events <+: answerOrder events ++ others := List.prefix_append _ _
  refine ⟨_, distinct, continues, ?_⟩
  rw [← run_grouped PoolEvent.conn distinct ?_ ?_]
  · exact ran
  · intro event member
    by_cases called : event.conn ∈ answerOrder events
    · simp [called]
    · have other : event.conn ∈ others := by
        simp only [others, List.mem_dedup, List.mem_filter]
        exact ⟨List.mem_map_of_mem member, by simpa using called⟩
      simp [other]
  · refine (answers_ordered distinct continues).imp fun {first later} ordered before => ?_
    have different : first.conn ≠ later.conn := fun same => by
      rw [same] at before
      exact Nat.lt_irrefl _ before
    refine step_commutes different ?_
    by_contra both
    obtain ⟨firstCalls, laterCalls⟩ := not_or.mp both
    exact Nat.lt_asymm before (ordered (not_not.mp firstCalls) (not_not.mp laterCalls))

theorem mem_answerOrder (fresh : ∀ conn, (start.clients conn).job = .ready)
    (ran : run (step server) start events = some last) (conn : ι) :
    conn ∈ answerOrder events ↔ .answer ∈ (last.clients conn).job.behind := by
  have mine := congrArg (⟨conn, .answer⟩ ∈ ·) (filter_conn fresh ran conn)
  simp only [List.mem_filter, decide_true, and_true, List.mem_map, PoolEvent.mk.injEq, true_and,
    exists_eq_right, eq_iff_iff] at mine
  rw [← mine]
  constructor
  · intro called
    obtain ⟨event, member, rfl⟩ := List.mem_map.mp called
    obtain ⟨inEvents, calls⟩ := List.mem_filter.mp member
    rwa [← of_decide_eq_true calls]
  · exact fun member => List.mem_map.mpr ⟨_, List.mem_filter.mpr ⟨member, by simp⟩, rfl⟩

theorem run_handles {conns : List ι} (distinct : conns.Nodup)
    (ready : ∀ conn ∈ conns, (pool.clients conn).job = .ready) :
    run (step server) pool (conns.flatMap fun conn =>
        (Job.finished (.value ())).behind.map (PoolEvent.mk conn)) =
      some (conns.foldl (handle server) pool) := by
  induction conns generalizing pool with
  | nil => rfl
  | cons conn conns ih =>
      obtain ⟨absent, distinct⟩ := List.nodup_cons.mp distinct
      rw [List.flatMap_cons, run_append, run_handle conn (ready conn (by simp)), Option.bind_some]
      refine ih distinct fun other member => ?_
      have different : other ≠ conn := fun same => absent (same ▸ member)
      simpa [handle, put, Function.update_of_ne different] using ready other (by simp [member])

theorem foldl_handle_clients (server : ServerSetup σ θ F) (pool : Pool σ θ ι) {conns : List ι}
    {conn : ι} (absent : conn ∉ conns) :
    (conns.foldl (handle server) pool).clients conn = pool.clients conn := by
  induction conns generalizing pool with
  | nil => rfl
  | cons other conns ih =>
      obtain ⟨different, absent⟩ := not_or.mp (mt List.mem_cons.mpr absent)
      rw [List.foldl_cons, ih _ absent]
      exact Function.update_of_ne different ..

/-- In a serial run each client makes the calls that are due at its turn. -/
theorem foldl_handle_calls {front back : List ι} {conn : ι} (distinct : (front ++ conn :: back).Nodup) :
    (((front ++ conn :: back).foldl (handle server) pool).clients conn).calls =
      (pool.clients conn).calls ++ server.exchange
        ((pool.clients conn).session (front.foldl (handle server) pool).shared) := by
  obtain ⟨-, later, apart⟩ := List.nodup_append.mp distinct
  have before : conn ∉ front := fun member => apart conn member conn (by simp) rfl
  rw [List.foldl_append, List.foldl_cons, foldl_handle_clients server _ (List.nodup_cons.mp later).1]
  have untouched := foldl_handle_clients server pool before
  simp only [handle, put, Function.update_self, Client.ofSession]
  rw [(ServerSetup.handleClientRequest_ended _).calls, untouched]
  rfl

/-- Once no client is in between, whatever the interleaving was, the pool is as
if the clients had been handled one after the other, in the order in which
their handlers were called. -/
theorem pool_serializable (fresh : ∀ conn, (start.clients conn).job = .ready)
    (ran : run (step server) start events = some last)
    (quiet : ∀ conn, (last.clients conn).job = .ready ∨
      ∃ done, (last.clients conn).job = .finished done) :
    (answerOrder events).Nodup ∧
      (∀ conn, conn ∈ answerOrder events ↔ ∃ done, (last.clients conn).job = .finished done) ∧
      last = (answerOrder events).foldl (handle server) start := by
  have called : ∀ conn, conn ∈ answerOrder events ↔
      ∃ done, (last.clients conn).job = .finished done := by
    intro conn
    rw [mem_answerOrder fresh ran]
    rcases quiet conn with ready | ⟨done, finished⟩
    · simp [ready, Job.behind]
    · simp [finished, Job.behind]
  have distinct := answerOrder_distinct fresh ran
  refine ⟨distinct, called, ?_⟩
  obtain ⟨order, orderDistinct, ⟨others, rfl⟩, grouped⟩ := runs_grouped fresh ran
  have idle : others.flatMap (fun conn => events.filter fun event => event.conn = conn) = [] := by
    refine List.flatMap_eq_nil_iff.mpr fun conn member => ?_
    have uncalled : conn ∉ answerOrder events := fun called =>
      (List.nodup_append.mp orderDistinct).2.2 conn called conn member rfl
    have ready := (quiet conn).resolve_right (mt (called conn).mpr uncalled)
    rw [filter_conn fresh ran, ready]
    rfl
  have busy : (answerOrder events).flatMap
        (fun conn => events.filter fun event => event.conn = conn) =
      (answerOrder events).flatMap fun conn =>
        (Job.finished (.value ())).behind.map (PoolEvent.mk conn) := by
    refine List.flatMap_congr fun conn member => ?_
    obtain ⟨done, finished⟩ := (called conn).mp member
    rw [filter_conn fresh ran, finished]
    rfl
  rw [List.flatMap_append, idle, List.append_nil, busy,
    run_handles distinct fun conn _ => fresh conn, Option.some.injEq] at grouped
  exact grouped.symm

end Pool

end ChaiBeast.Server
