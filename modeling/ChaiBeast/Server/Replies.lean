import ChaiBeast.Server.Serving

namespace ChaiBeast.Server

open Data Data.Transition Http Routing

/-! Which responses a running server writes to which client: in every
interleaving, those that its router has for the client's own request. -/

variable {σ θ F : Type}

/-- A property of what the handlers share that every call of a handler keeps. -/
def ServerSetup.Keeps (server : ServerSetup σ θ F) (Inv : θ → Prop) : Prop :=
  ∀ handler req shared, Inv shared → Inv (server.router.forward handler req shared).2

/-- What is due to what was read, in some state with the property. -/
def ServerSetup.MayAnswer (server : ServerSetup σ θ F) (Inv : θ → Prop)
    (asked : Except Fault VariantRequest) (told : Option VariantResponse) : Prop :=
  ∃ shared, Inv shared ∧ server.due (server.outcome asked shared).1 = told

/-- What reading the stream of a client gives. -/
def ServerSetup.asked (server : ServerSetup σ θ F) (stream : σ) : Except Fault VariantRequest :=
  server.streamMaker.read (server.calls.httpRead stream).1

/-- A client that has asked for `asked` is told the answer to it, if there is
one, and nothing else. -/
structure Client.Told (server : ServerSetup σ θ F) (Inv : θ → Prop)
    (asked : Except Fault VariantRequest) (client : Client σ) : Prop where
  ready : client.job = .ready → server.asked client.stream = asked
  requested : ∀ completion, client.job = .requested completion → completion = .ofExcept asked
  answered : ∀ completion, client.job = .answered completion →
    server.MayAnswer Inv asked completion.value?
  unsent : .send ∉ client.job.behind → ∀ resp, .write resp ∉ client.calls
  sent : .send ∈ client.job.behind → ∃ told, server.MayAnswer Inv asked told ∧
    ∀ resp, .write resp ∈ client.calls ↔ told = some resp

variable {server : ServerSetup σ θ F} {Inv : θ → Prop} {asked : Except Fault VariantRequest}

theorem ServerSetup.Keeps.outcome (keeps : server.Keeps Inv) {shared : θ} (holds : Inv shared) :
    Inv (server.outcome asked shared).2 := by
  unfold ServerSetup.outcome
  split
  · exact holds
  · split
    · exact holds
    · exact holds
    · exact keeps _ _ shared holds

/-- Once the request is read, the answering stage is what the router makes of
it. -/
theorem answerRequest_holds (asked : Except Fault VariantRequest) (session : Session σ θ) :
    Sender.Post.Holds
      ⟨fun resp after => ∃ result, server.Answers asked session result after ∧
          server.due result = some resp,
        fun fault after => server.Answers asked session (.error fault) after ∧
          what server.outOfRange fault = none, fun _ => False⟩
      (server.answerRequest (.completed (.ofExcept asked)) session) := by
  refine @ServerSetup.answerRequest_spec _ _ _ _ (· = session) asked session _ ?_ session rfl
  intro start same
  subst same
  cases asked with
  | ok req => exact ⟨rfl, rfl⟩
  | error fault => exact ⟨rfl, rfl⟩

theorem answerRequest_outcome (session : Session σ θ) :
    (server.answerRequest (.completed (.ofExcept asked)) session).2.shared =
        (server.outcome asked session.shared).2 ∧
      server.due (server.outcome asked session.shared).1 =
        (server.answerRequest (.completed (.ofExcept asked)) session).1.value? := by
  have done := @answerRequest_holds _ _ _ server asked session
  generalize server.answerRequest (.completed (.ofExcept asked)) session = completion at done ⊢
  match completion with
  | (.value resp, after) =>
      obtain ⟨result, ⟨came, -⟩, due⟩ := done
      exact ⟨by rw [came], by rw [came]; exact due⟩
  | (.error fault, after) =>
      obtain ⟨⟨came, -⟩, unnamed⟩ := done
      refine ⟨by rw [came], ?_⟩
      rw [came, ServerSetup.due, unnamed]
      rfl
  | (.stopped, after) => exact done.elim

namespace Client.Told

section Phases

variable {stream : σ} {calls : List StreamCall}

theorem of_requested (unwritten : ∀ resp, .write resp ∉ calls) :
    (⟨stream, calls, .requested (.ofExcept asked)⟩ : Client σ).Told server Inv asked where
  ready := nofun
  requested _ same := (Job.requested.inj same).symm
  answered := nofun
  unsent _ := unwritten
  sent past := absurd past (by simp [Job.behind])

theorem of_answered {completion : Completion Fault VariantResponse}
    (due : server.MayAnswer Inv asked completion.value?) (unwritten : ∀ resp, .write resp ∉ calls) :
    (⟨stream, calls, .answered completion⟩ : Client σ).Told server Inv asked where
  ready := nofun
  requested := nofun
  answered _ same := Job.answered.inj same ▸ due
  unsent _ := unwritten
  sent past := absurd past (by simp [Job.behind])

variable {completion : Completion Fault Unit} {told : Option VariantResponse}

theorem of_sent (due : server.MayAnswer Inv asked told)
    (writes : ∀ resp, .write resp ∈ calls ↔ told = some resp) :
    (⟨stream, calls, .sent completion⟩ : Client σ).Told server Inv asked where
  ready := nofun
  requested := nofun
  answered := nofun
  unsent early := absurd (by simp [Job.behind]) early
  sent _ := ⟨told, due, writes⟩

theorem of_finished (due : server.MayAnswer Inv asked told)
    (writes : ∀ resp, .write resp ∈ calls ↔ told = some resp) :
    (⟨stream, calls, .finished completion⟩ : Client σ).Told server Inv asked where
  ready := nofun
  requested := nofun
  answered := nofun
  unsent early := absurd (by simp [Job.behind]) early
  sent _ := ⟨told, due, writes⟩

end Phases

theorem advance {client next : Client σ} {stage : Stage} {shared after : θ}
    (told : client.Told server Inv asked) (keeps : server.Keeps Inv) (holds : Inv shared)
    (advanced : client.advance server stage shared = some (next, after)) :
    next.Told server Inv asked ∧ Inv after := by
  obtain ⟨stream, calls, job⟩ := client
  obtain ⟨ready, requested, answered, unsent, sent⟩ := told
  match stage, job with
  | .read, .ready =>
      have unwritten : ∀ resp, .write resp ∉ calls ++ [.read] := fun resp member =>
        unsent (by simp [Job.behind]) resp (by simpa using member)
      have asks : server.asked stream = asked := ready rfl
      subst asks
      cases advanced
      exact ⟨of_requested unwritten, holds⟩
  | .answer, .requested completion =>
      obtain rfl := requested completion rfl
      obtain ⟨sharedAfter, due⟩ :=
        @answerRequest_outcome _ _ _ server asked ⟨stream, shared, calls⟩
      have kept := @answerRequest_calls _ _ _ server (.ofExcept asked) ⟨stream, shared, calls⟩
      have unwritten := unsent (by simp [Job.behind])
      rw [show calls = _ from kept.symm] at unwritten
      have holdsAfter := @ServerSetup.Keeps.outcome _ _ _ server Inv asked keeps shared holds
      rw [← sharedAfter] at holdsAfter
      cases advanced
      exact ⟨of_answered ⟨shared, holds, due⟩ unwritten, holdsAfter⟩
  | .send, .answered (.value resp) =>
      have writes : ∀ other, .write other ∈ calls ++ [.write resp] ↔ some resp = some other := by
        intro other
        have fresh := unsent (by simp [Job.behind]) other
        simp [fresh, eq_comm]
      cases advanced
      exact ⟨of_sent (answered _ rfl) writes, holds⟩
  | .send, .answered (.error _) | .send, .answered .stopped =>
      have writes : ∀ resp, .write resp ∈ calls ↔ none = some resp := fun resp =>
        iff_of_false (unsent (by simp [Job.behind]) resp) (by simp)
      cases advanced
      exact ⟨of_sent (answered _ rfl) writes, holds⟩
  | .finish, .sent completion =>
      have kept := @finishRequest_calls _ _ _ server completion ⟨stream, shared, calls⟩
      have other : Stage.finish ≠ .answer := by decide
      obtain ⟨alone, quiet⟩ :=
        Client.advance_local server other ⟨stream, calls, .sent completion⟩ shared
      have holdsAfter : Inv after := by
        rw [quiet] at advanced
        obtain ⟨_, -, same⟩ := Option.map_eq_some_iff.mp advanced
        rwa [(Prod.mk.inj same).2] at holds
      obtain ⟨told, due, writes⟩ := sent (by simp [Job.behind])
      have closed : ∀ resp, .write resp ∈ calls ++ closing completion ↔ told = some resp := by
        intro resp
        rw [← writes resp]
        cases completion <;> simp [closing]
      rw [show calls ++ closing completion = _ from kept.symm] at closed
      cases advanced
      exact ⟨of_finished due closed, holdsAfter⟩
  | .read, .requested _ | .read, .answered _ | .read, .sent _ | .read, .finished _
  | .answer, .ready | .answer, .answered _ | .answer, .sent _ | .answer, .finished _
  | .send, .ready | .send, .requested _ | .send, .sent _ | .send, .finished _
  | .finish, .ready | .finish, .requested _ | .finish, .answered _ | .finish, .finished _ =>
      cases advanced

theorem fresh (stream : σ) : ({ stream } : Client σ).Told server Inv (server.asked stream) :=
  ⟨fun _ => rfl, nofun, nofun, fun _ => nofun, nofun⟩

theorem written {client : Client σ} (told : client.Told server Inv asked)
    {resp : VariantResponse} (written : .write resp ∈ client.calls) :
    server.MayAnswer Inv asked (some resp) := by
  by_cases past : .send ∈ client.job.behind
  · obtain ⟨given, due, writes⟩ := told.sent past
    rwa [(writes resp).mp written] at due
  · exact absurd written (told.unsent past resp)

end Client.Told

theorem ServerSetup.asked_eq (server : ServerSetup σ θ F) (stream : σ) :
    server.asked stream = readRequest (server.calls.httpRead stream).1 := by
  unfold asked
  cases server.streamMaker <;> rfl

theorem due_isSome_iff (server : ServerSetup σ θ F) (result : Except Fault VariantResponse) :
    (server.due result).isSome ↔ Caught result := by
  cases result with
  | ok resp => simp [ServerSetup.due]
  | error fault => cases fault <;> simp [ServerSetup.due, what, Fault.caught]

/-- A client whose answer is known to exist was written it, once its sending stage
is over. -/
theorem Client.Told.answered_of_caught {client : Client σ} (told : client.Told server Inv asked)
    (caught : ∀ shared, Inv shared → Caught (server.outcome asked shared).1)
    (past : .send ∈ client.job.behind) : ∃ resp, .write resp ∈ client.calls := by
  obtain ⟨given, ⟨shared, holds, due⟩, writes⟩ := told.sent past
  have isDue := (due_isSome_iff server _).mpr (caught shared holds)
  rw [due, Option.isSome_iff_exists] at isDue
  exact isDue.imp fun resp same => (writes resp).mpr same

/-- What the handlers share has a property, and each client is told the answer to
the request that was read from its own stream. -/
structure Serving.Told (server : ServerSetup σ θ F) (Inv : θ → Prop) (streams : Nat → σ)
    (serving : Serving σ θ) : Prop where
  shared : Inv serving.pool.shared
  clients : ∀ conn, (serving.pool.clients conn).Told server Inv (server.asked (streams conn))

theorem Serving.Told.initial {shared : θ} (holds : Inv shared) (streams : Nat → σ) :
    (Serving.start shared streams).Told server Inv streams :=
  ⟨holds, fun conn => Client.Told.fresh (streams conn)⟩

theorem Serving.Told.preserved {streams : Nat → σ} {serving next : Serving σ θ}
    {event : ServingEvent} (told : serving.Told server Inv streams) (keeps : server.Keeps Inv)
    (taken : Serving.step server serving event = some next) : next.Told server Inv streams := by
  obtain ⟨-, ⟨accepted, chain, -, -, rfl⟩ | ⟨staged, client, shared, -, -, advanced, rfl⟩⟩ :=
    Serving.step_inv taken
  · exact ⟨told.shared, told.clients⟩
  · obtain ⟨mineTold, holds⟩ := (told.clients staged.conn).advance keeps told.shared advanced
    refine ⟨holds, fun conn => ?_⟩
    by_cases mine : conn = staged.conn
    · subst mine
      simpa using mineTold
    · simpa [Function.update_of_ne mine] using told.clients conn

/-- In every state of every run, what the handlers share has any property that
they keep, and each client is told the answer to the request that was read from
its own stream. -/
theorem Serving.clients_told {server : ServerSetup σ θ F} {Inv : θ → Prop}
    (keeps : server.Keeps Inv) {shared : θ} (holds : Inv shared) (streams : Nat → σ)
    (events : List ServingEvent) :
    Always (Serving.step server) (Serving.Told server Inv streams) (Serving.start shared streams)
      events :=
  always_of_invariant (fun _ _ _ told taken => Serving.Told.preserved told keeps taken)
    (fun _ told => told) (.initial holds streams)

end ChaiBeast.Server
