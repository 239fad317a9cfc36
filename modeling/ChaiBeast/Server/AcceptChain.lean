import ChaiBeast.Strings
import ChaiBeast.Data.Transition

namespace ChaiBeast.Server

open Data.Transition

/-! The coroutines that `acceptAsyncConnection` of streams.hpp spawns on the
`io_context`, as a transition system over what the executor, the network and
the clients do. -/

inductive Token where
  | yield
  | yieldEc
deriving Repr, DecidableEq

/-- What awaiting an operation leaves in the local `ec`.  A plain `yield`
throws the error instead. -/
def Token.await (outcome : ErrorCode) : Token → Except Fault ErrorCode
  | .yield =>
      match outcome with
      | some message => .error (.runtimeError message)
      | none => .ok none
  | .yieldEc => .ok outcome

def checkFailed (ec : ErrorCode) : Bool :=
  ec.isSome

/-- How far the handshake of a client gets with what the client has sent. -/
inductive Handshake where
  | finished (ec : ErrorCode)
  | unfinished
deriving Repr, DecidableEq

/-- A coroutine that is spawned and not yet started, or suspended in an
asynchronous operation.  Connections are numbered in the order of acceptance. -/
inductive Coroutine where
  | accept
  | accepting
  | handshake (conn : Nat) (client : Handshake)
  | handshaking (conn : Nat)
  | work (conn : Nat)
deriving Repr, DecidableEq

/-- The common end of the coroutines: after an awaited operation they spawn
`accept` again if it failed, else the coroutine that comes next. -/
def awaitThenSpawn (token : Token) (outcome : ErrorCode) (next : Coroutine) :
    Except Fault Coroutine := do
  let ec ← token.await outcome
  if checkFailed ec then return .accept
  return next

inductive StreamMaker where
  | tcp
  | ssl
deriving Repr, DecidableEq

def StreamMaker.doAccept (conn : Nat) (client : Handshake) (outcome : ErrorCode) :
    StreamMaker → Except Fault Coroutine
  | .tcp => awaitThenSpawn .yield outcome (.work conn)
  | .ssl => awaitThenSpawn .yieldEc outcome (.handshake conn client)

def doHandshake (conn : Nat) (outcome : ErrorCode) : Except Fault Coroutine :=
  awaitThenSpawn .yieldEc outcome (.work conn)

structure Chain where
  coroutines : List Coroutine := [.accept]
  accepted : Nat := 0
  handed : List Nat := []
  failed : List Nat := []
deriving Repr, DecidableEq

/-- A coroutine ends: what it spawned becomes live, and an exception that
leaves it spawns nothing. -/
def Chain.spawn (chain : Chain) : Except Fault Coroutine → Chain
  | .ok next => { chain with coroutines := chain.coroutines ++ [next] }
  | .error _ => chain

/-- What can happen to one coroutine: the executor starts it, the network
completes its accept, or its client completes the handshake. -/
inductive Signal where
  | start
  | accepted (outcome : ErrorCode) (client : Handshake)
  | handshaken (outcome : ErrorCode)
deriving Repr, DecidableEq

def Chain.handshaken (chain : Chain) (conn : Nat) (outcome : ErrorCode) : Chain :=
  { chain with failed := if checkFailed outcome then chain.failed ++ [conn] else chain.failed }.spawn
    (doHandshake conn outcome)

def resume (maker : StreamMaker) (chain : Chain) : Coroutine → Signal → Option Chain
  | .accept, .start => some (chain.spawn (.ok .accepting))
  | .accepting, .accepted outcome client =>
      let accepted := if checkFailed outcome then chain.accepted else chain.accepted + 1
      some ({ chain with accepted }.spawn (maker.doAccept chain.accepted client outcome))
  | .handshake conn (.finished outcome), .start => some (chain.handshaken conn outcome)
  | .handshake conn .unfinished, .start => some (chain.spawn (.ok (.handshaking conn)))
  -- The client may complete its part before the coroutine has started.
  | .handshake conn .unfinished, .handshaken outcome =>
      some (chain.spawn (.ok (.handshake conn (.finished outcome))))
  | .handshaking conn, .handshaken outcome => some (chain.handshaken conn outcome)
  | .work conn, .start => some ({ chain with handed := chain.handed ++ [conn] }.spawn (.ok .accept))
  | _, _ => none

structure Event where
  index : Nat
  signal : Signal
deriving Repr, DecidableEq

def step (maker : StreamMaker) (chain : Chain) (event : Event) : Option Chain := do
  let coroutine ← chain.coroutines[event.index]?
  resume maker { chain with coroutines := chain.coroutines.eraseIdx event.index } coroutine
    event.signal

/-- The executor can bring the chain into `async_accept` on its own. -/
def Chain.Open (maker : StreamMaker) (chain : Chain) : Prop :=
  ∃ events last, (∀ event ∈ events, event.signal = .start) ∧
    run (step maker) chain events = some last ∧ .accepting ∈ last.coroutines

/-- The outcomes after which the acceptor is armed again: for TCP no error of
an accept, for TLS no accepted client that leaves its handshake unfinished. -/
def StreamMaker.Rearms : StreamMaker → Signal → Prop
  | .tcp, .accepted outcome _ => outcome = none
  | .ssl, .accepted outcome client => outcome = none → client ≠ .unfinished
  | _, _ => True

theorem step_cases {maker : StreamMaker} {chain next : Chain} {event : Event}
    (taken : step maker chain event = some next) :
    ∃ coroutine, chain.coroutines[event.index]? = some coroutine ∧
      resume maker { chain with coroutines := chain.coroutines.eraseIdx event.index } coroutine
        event.signal = some next := by
  simpa only [step, bind, Option.bind_eq_some_iff] using taken

theorem Chain.spawn_length (chain : Chain) (spawned : Except Fault Coroutine) :
    (chain.spawn spawned).coroutines.length ≤ chain.coroutines.length + 1 := by
  cases spawned <;> simp [Chain.spawn]

theorem resume_length {maker : StreamMaker} {chain next : Chain} {coroutine : Coroutine}
    {signal : Signal} (taken : resume maker chain coroutine signal = some next) :
    next.coroutines.length ≤ chain.coroutines.length + 1 := by
  unfold resume Chain.handshaken at taken
  split at taken <;> cases taken <;> exact Chain.spawn_length _ _

def Chain.Single (chain : Chain) : Prop :=
  chain.coroutines.length ≤ 1

theorem Chain.Single.step_cases {maker : StreamMaker} {chain next : Chain} {event : Event}
    (single : chain.Single) (taken : step maker chain event = some next) :
    ∃ coroutine, chain.coroutines = [coroutine] ∧
      resume maker { chain with coroutines := [] } coroutine event.signal = some next := by
  obtain ⟨coroutine, live, resumed⟩ := Server.step_cases taken
  obtain ⟨within, here⟩ := List.getElem?_eq_some_iff.mp live
  obtain ⟨only, shape⟩ : ∃ only, chain.coroutines = [only] :=
    List.length_eq_one_iff.mp (Nat.le_antisymm single (Nat.one_le_of_lt within))
  have first : event.index = 0 := by simpa [shape] using within
  have same : only = coroutine := by simpa [shape, first] using live
  exact ⟨coroutine, by rw [shape, same], by simpa [shape, first] using resumed⟩

theorem Chain.Single.preserved {maker : StreamMaker} {chain next : Chain} {event : Event}
    (single : chain.Single) (taken : step maker chain event = some next) : next.Single := by
  obtain ⟨coroutine, -, resumed⟩ := single.step_cases taken
  exact resume_length resumed

def Coroutine.awaitsClient : Coroutine → Bool
  | .handshake _ .unfinished => true
  | .handshaking _ => true
  | _ => false

theorem awaitsClient_of_start {maker : StreamMaker} {chain next : Chain} {event : Event}
    (waiting : ∀ coroutine ∈ chain.coroutines, coroutine.awaitsClient)
    (start : event.signal = .start) (taken : step maker chain event = some next) :
    ∀ coroutine ∈ next.coroutines, coroutine.awaitsClient := by
  obtain ⟨coroutine, live, resumed⟩ := step_cases taken
  have others : ∀ other ∈ chain.coroutines.eraseIdx event.index, other.awaitsClient :=
    fun other member => waiting other (List.mem_of_mem_eraseIdx member)
  have awaits := waiting coroutine (List.mem_of_getElem? live)
  rw [start] at resumed
  match coroutine with
  | .accept | .accepting | .work _ | .handshake _ (.finished _) => cases awaits
  | .handshaking _ => cases resumed
  | .handshake conn .unfinished =>
      cases resumed
      simpa [Chain.spawn, or_imp, forall_and, Coroutine.awaitsClient] using others

theorem Chain.Single.open_iff {maker : StreamMaker} {chain : Chain} (single : chain.Single) :
    chain.Open maker ↔ ∃ coroutine ∈ chain.coroutines, coroutine.awaitsClient = false := by
  constructor
  · intro isOpen
    obtain ⟨events, last, starts, ran, armed⟩ := isOpen
    by_contra stuck
    have waiting : ∀ coroutine ∈ chain.coroutines, coroutine.awaitsClient := by simpa using stuck
    have stays : Always (step maker)
        (fun chain => ∀ coroutine ∈ chain.coroutines, coroutine.awaitsClient) chain events :=
      always_of_keeps (fun _ _ _ => awaitsClient_of_start) waiting
        ((obeys_iff_forall ran).mpr starts)
    have awaits := stays events [] (by simp) last ran _ armed
    cases awaits
  · intro free
    obtain ⟨coroutine, live, ready⟩ := free
    obtain ⟨coroutines, accepted, handed, failed⟩ := chain
    obtain rfl : coroutines = [coroutine] := by
      obtain ⟨only, rfl⟩ := List.length_eq_one_iff.mp
        (Nat.le_antisymm single (List.length_pos_of_mem live))
      rw [List.mem_singleton.mp live]
    let start : Event := ⟨0, .start⟩
    have starts : ∀ count, ∀ event ∈ List.replicate count start, event.signal = .start := by
      intro count event member
      rw [List.eq_of_mem_replicate member]
    match coroutine with
    | .accepting => exact ⟨[], _, by simp, rfl, by simp⟩
    | .accept => exact ⟨.replicate 1 start, _, starts 1, rfl, by simp [Chain.spawn]⟩
    | .work _ => exact ⟨.replicate 2 start, _, starts 2, rfl, by simp [Chain.spawn]⟩
    | .handshake _ (.finished (some _)) =>
        exact ⟨.replicate 2 start, _, starts 2, rfl, by simp [Chain.spawn]⟩
    | .handshake _ (.finished none) =>
        exact ⟨.replicate 3 start, _, starts 3, rfl, by simp [Chain.spawn]⟩

theorem Chain.Single.open_step_iff {maker : StreamMaker} {chain next : Chain} {event : Event}
    (single : chain.Single) (wasOpen : chain.Open maker)
    (taken : step maker chain event = some next) :
    next.Open maker ↔ maker.Rearms event.signal := by
  obtain ⟨coroutine, only, resumed⟩ := single.step_cases taken
  rw [(single.preserved taken).open_iff]
  obtain ⟨live, member, ready⟩ := single.open_iff.mp wasOpen
  rw [only] at member
  rw [List.mem_singleton.mp member] at ready
  generalize event.signal = signal at resumed ⊢
  match coroutine, signal with
  | .accepting, .accepted outcome client =>
      cases resumed
      cases maker <;> cases outcome <;> cases client <;>
        simp [Chain.spawn, StreamMaker.doAccept, awaitThenSpawn, Token.await, checkFailed,
          Coroutine.awaitsClient, StreamMaker.Rearms]
  | .handshake _ (.finished outcome), .start =>
      cases resumed
      cases outcome <;>
        simp [Chain.spawn, Chain.handshaken, doHandshake, awaitThenSpawn, Token.await, checkFailed,
          Coroutine.awaitsClient, StreamMaker.Rearms]
  | .accept, .start | .work _, .start =>
      cases resumed
      simp [Chain.spawn, Coroutine.awaitsClient, StreamMaker.Rearms]
  | .handshake _ .unfinished, _ | .handshaking _, _ => cases ready
  | .accept, .accepted .. | .accept, .handshaken _ | .accepting, .start
  | .accepting, .handshaken _ | .handshake _ (.finished _), .accepted ..
  | .handshake _ (.finished _), .handshaken _ | .work _, .accepted ..
  | .work _, .handshaken _ => cases resumed

/-- The server stays open through a run exactly if every outcome in it rearms
the acceptor. -/
theorem stays_open_iff (maker : StreamMaker) (events : List Event) :
    Always (step maker) (Chain.Open maker) {} events ↔
      Obeys (step maker) (fun _ event => maker.Rearms event.signal) {} events := by
  have single : ({} : Chain).Single := by simp [Chain.Single]
  exact always_iff_obeys (fun _ _ _ => Chain.Single.preserved) (fun _ _ _ => Chain.Single.open_step_iff)
    single (single.open_iff.mpr ⟨.accept, by simp, rfl⟩)

theorem acceptor_left_unarmed :
    ¬ Always (step .tcp) (Chain.Open .tcp) {}
        [⟨0, .start⟩, ⟨0, .accepted (some "Too many open files".toList) .unfinished⟩] ∧
      ¬ Always (step .ssl) (Chain.Open .ssl) {}
        [⟨0, .start⟩, ⟨0, .accepted none .unfinished⟩, ⟨0, .start⟩] := by
  refine ⟨?_, ?_⟩
  · intro always
    let ended : Chain := { coroutines := [] }
    have single : ended.Single := Nat.zero_le 1
    have isOpen : ended.Open .tcp := always _ [] (List.append_nil _).symm ended rfl
    obtain ⟨coroutine, live, -⟩ := single.open_iff.mp isOpen
    cases live
  · intro always
    let silent : Chain := { coroutines := [.handshaking 0], accepted := 1 }
    have single : silent.Single := Nat.le_refl 1
    have isOpen : silent.Open .ssl := always _ [] (List.append_nil _).symm silent rfl
    obtain ⟨coroutine, live, ready⟩ := single.open_iff.mp isOpen
    cases List.mem_singleton.mp live
    cases ready

end ChaiBeast.Server
