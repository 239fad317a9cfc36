import ChaiBeast.Data.Commuting
import ChaiBeast.Server.AcceptChain

namespace ChaiBeast.Server

open Data.Transition

/-! `waitForConnection` of server.hpp, the loop over the blocking
`acceptConnection` of streams.hpp, and the asynchronous chain that replaces it. -/

/-- The connections as the loop has dealt with them, and the client for whose
handshake it waits. -/
structure Loop where
  accepted : Nat := 0
  handed : List Nat := []
  failed : List Nat := []
  blocked : Option Nat := none
deriving Repr, DecidableEq

inductive NetworkEvent where
  | accepted (outcome : ErrorCode) (client : Handshake)
  | handshaken (outcome : ErrorCode)
deriving Repr, DecidableEq

namespace Loop

/-- A blocking call throws its error, as a plain `yield` does, and the loop
prints it. -/
def handshaken (loop : Loop) (conn : Nat) (outcome : ErrorCode) : Loop :=
  match Token.yield.await outcome with
  | .error _ => { loop with failed := loop.failed ++ [conn] }
  | .ok _ => { loop with handed := loop.handed ++ [conn] }

/-- A client is accepted.  A TCP client has no handshake. -/
def enter (loop : Loop) (client : Handshake) : StreamMaker → Loop
  | .tcp => { loop with accepted := loop.accepted + 1, handed := loop.handed ++ [loop.accepted] }
  | .ssl =>
      let accepted := { loop with accepted := loop.accepted + 1 }
      match client with
      | .finished outcome => accepted.handshaken loop.accepted outcome
      | .unfinished => { accepted with blocked := some loop.accepted }

def step (maker : StreamMaker) (loop : Loop) (event : NetworkEvent) : Option Loop :=
  match event, loop.blocked with
  | .accepted outcome client, none =>
      match Token.yield.await outcome with
      | .error _ => some loop
      | .ok _ => some (loop.enter client maker)
  | .handshaken outcome, some conn => some ({ loop with blocked := none }.handshaken conn outcome)
  | _, _ => none

end Loop

/-- The network events among the signals.  The executor's own are not seen. -/
def Event.observed (event : Event) : Option NetworkEvent :=
  match event.signal with
  | .start => none
  | .accepted outcome client => some (.accepted outcome client)
  | .handshaken outcome => some (.handshaken outcome)

/-- The loop at the same point: what the chain has only scheduled is done at
once. -/
def Chain.toLoop (chain : Chain) : Loop :=
  let loop : Loop := { accepted := chain.accepted, handed := chain.handed, failed := chain.failed }
  match chain.coroutines with
  | [.handshake conn (.finished outcome)] => loop.handshaken conn outcome
  | [.handshake conn .unfinished] | [.handshaking conn] => { loop with blocked := some conn }
  | [.work conn] => { loop with handed := loop.handed ++ [conn] }
  | _ => loop

theorem Chain.Single.simulates {maker : StreamMaker} {chain next : Chain} {event : Event}
    (single : chain.Single) (taken : step maker chain event = some next) :
    event.observed.elim (some chain.toLoop) (Loop.step maker chain.toLoop) = some next.toLoop := by
  obtain ⟨coroutine, only, resumed⟩ := single.step_cases taken
  unfold Event.observed
  generalize event.signal = signal at resumed ⊢
  obtain ⟨coroutines, accepted, handed, failed⟩ := chain
  obtain rfl : coroutines = [coroutine] := only
  match coroutine, signal with
  | .accept, .start | .work _, .start | .handshake _ .unfinished, .start =>
      cases resumed
      rfl
  | .accepting, .accepted outcome client =>
      cases resumed
      cases maker <;> cases outcome <;> cases client <;> rfl
  | .handshake _ (.finished outcome), .start =>
      cases resumed
      cases outcome <;> rfl
  | .handshake _ .unfinished, .handshaken outcome =>
      cases resumed
      rfl
  | .handshaking _, .handshaken outcome =>
      cases resumed
      cases outcome <;> rfl
  | .accept, .accepted .. | .accept, .handshaken _ | .accepting, .start
  | .accepting, .handshaken _ | .handshake _ (.finished _), .accepted ..
  | .handshake _ (.finished _), .handshaken _ | .work _, .accepted ..
  | .work _, .handshaken _ | .handshaking _, .start | .handshaking _, .accepted ..
  | .handshake _ .unfinished, .accepted .. => cases resumed

/-- The chain waits for the network. -/
def Chain.Settled (chain : Chain) : Prop :=
  chain.coroutines = [.accepting] ∨ ∃ conn, chain.coroutines = [.handshaking conn]

/-- The accepts that do not end the chain. -/
def StreamMaker.Survives : StreamMaker → NetworkEvent → Prop
  | .tcp, .accepted outcome _ => outcome = none
  | _, _ => True

/-- From where it waits, the chain can follow the loop through one more event. -/
theorem Chain.Settled.follows {maker : StreamMaker} {chain : Chain} {event : NetworkEvent}
    {next : Loop} (settled : chain.Settled) (survives : maker.Survives event)
    (taken : Loop.step maker chain.toLoop event = some next) :
    ∃ events after, events.filterMap Event.observed = [event] ∧
      run (step maker) chain events = some after ∧ after.Settled ∧ after.toLoop = next := by
  obtain ⟨coroutines, accepted, handed, failed⟩ := chain
  let start : Event := ⟨0, .start⟩
  rcases settled with rfl | ⟨conn, rfl⟩
  · match maker, event with
    | _, .handshaken _ => cases taken
    | .tcp, .accepted (some _) _ => cases survives
    | .tcp, .accepted none client =>
        cases taken
        refine ⟨[⟨0, .accepted none client⟩, start, start], _, rfl, rfl, ?_, ?_⟩
        · exact .inl rfl
        · rfl
    | .ssl, .accepted (some message) client =>
        cases taken
        refine ⟨[⟨0, .accepted (some message) client⟩, start], _, rfl, rfl, ?_, ?_⟩
        · exact .inl rfl
        · rfl
    | .ssl, .accepted none .unfinished =>
        cases taken
        refine ⟨[⟨0, .accepted none .unfinished⟩, start], _, rfl, rfl, ?_, ?_⟩
        · exact .inr ⟨accepted, rfl⟩
        · rfl
    | .ssl, .accepted none (.finished (some message)) =>
        cases taken
        refine ⟨[⟨0, .accepted none (.finished (some message))⟩, start, start], _, rfl, rfl, ?_, ?_⟩
        · exact .inl rfl
        · rfl
    | .ssl, .accepted none (.finished none) =>
        cases taken
        refine ⟨[⟨0, .accepted none (.finished none)⟩, start, start, start], _, rfl, rfl, ?_, ?_⟩
        · exact .inl rfl
        · rfl
  · match event with
    | .accepted _ _ => cases taken
    | .handshaken (some message) =>
        cases taken
        refine ⟨[⟨0, .handshaken (some message)⟩, start], _, rfl, rfl, ?_, ?_⟩
        · exact .inl rfl
        · rfl
    | .handshaken none =>
        cases taken
        refine ⟨[⟨0, .handshaken none⟩, start, start], _, rfl, rfl, ?_, ?_⟩
        · exact .inl rfl
        · rfl

/-- The chain and the blocking loop deal with the same connections in the same
way.  Every run of the chain is one of the loop on the same network events, and
a run of the loop is one of the chain unless an accept fails that ends it. -/
theorem chain_agrees_with_loop (maker : StreamMaker) :
    (∀ events last, run (step maker) {} events = some last →
      run (Loop.step maker) {} (events.filterMap Event.observed) = some last.toLoop) ∧
    ∀ network last, run (Loop.step maker) {} network = some last →
      (∀ event ∈ network, maker.Survives event) →
      ∃ events chain, events.filterMap Event.observed = network ∧
        run (step maker) {} events = some chain ∧ chain.toLoop = last := by
  refine ⟨fun events last ran => ?_, fun network last ran survives => ?_⟩
  · have single : ({} : Chain).Single := Nat.le_refl 1
    refine run_simulates Chain.toLoop Chain.Single ?_ ?_ single ran
    · exact fun _ _ _ => Chain.Single.preserved
    · exact fun _ _ _ => Chain.Single.simulates
  · have follow : ∀ (network : List NetworkEvent) (chain : Chain), chain.Settled →
        run (Loop.step maker) chain.toLoop network = some last →
        (∀ event ∈ network, maker.Survives event) →
        ∃ events after, events.filterMap Event.observed = network ∧
          run (step maker) chain events = some after ∧ after.toLoop = last := by
      intro network
      induction network with
      | nil =>
          intro chain _ ran _
          cases ran
          exact ⟨[], chain, rfl, rfl, rfl⟩
      | cons event network ih =>
          intro chain settled ran survives
          obtain ⟨next, taken, ran⟩ := run_cons_inv ran
          obtain ⟨front, middle, seen, ranFront, settled, rfl⟩ :=
            settled.follows (survives event (by simp)) taken
          obtain ⟨back, after, seenBack, ranBack, same⟩ :=
            ih middle settled ran fun other member => survives other (by simp [member])
          refine ⟨front ++ back, after, ?_, ?_, same⟩
          · rw [List.filterMap_append, seen, seenBack, List.singleton_append]
          · rw [run_append, ranFront, Option.bind_some, ranBack]
    let armed : Chain := { coroutines := [.accepting] }
    obtain ⟨events, chain, seen, ranChain, same⟩ := follow network armed (.inl rfl) ran survives
    exact ⟨⟨0, .start⟩ :: events, chain, seen, ranChain, same⟩

end ChaiBeast.Server
