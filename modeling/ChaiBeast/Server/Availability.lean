import ChaiBeast.Server.Replies

namespace ChaiBeast.Server

open Data Data.Transition Http Routing

/-! Whether a server goes on and answers all its clients: as long as no handling of
a request meets undefined behavior. -/

variable {σ θ F : Type} {server : ServerSetup σ θ F} {Inv : θ → Prop}
  {asked : Except Fault VariantRequest} {shared after : θ}

/-- The calls that write to a stream and close it throw nothing but
`std::exception`s. -/
def StreamCalls.ThrowCaught (calls : StreamCalls σ) : Prop :=
  (∀ resp stream, Caught (calls.httpWrite resp stream).1) ∧ ∀ stream, Caught (calls.close stream).1

/-- No stage of a client that goes on has failed beyond its handler. -/
structure Client.Steady (client : Client σ) : Prop where
  answered : ∀ completion, client.job = .answered completion → ∃ resp, completion = .value resp
  sent : ∀ completion, client.job = .sent completion →
    ∃ result : Except Fault Unit, completion = .ofExcept result ∧ Caught result

theorem Fault.caught_iff (fault : Fault) :
    fault.caught = true ↔ fault ≠ .foreign ∧ fault.undefined = false := by
  cases fault <;> simp [Fault.caught, Fault.undefined]

theorem what_isSome_iff (outOfRange : CppString) (fault : Fault) :
    (what outOfRange fault).isSome ↔ fault.caught = true := by
  cases fault <;> simp [what, Fault.caught]

theorem completionSurvives_of_caught {result : Except Fault α} (caught : Caught result) :
    completionSurvives (.ofExcept result) = true := by
  cases result with
  | ok a => rfl
  | error fault =>
      have defined := ((Fault.caught_iff fault).mp (caught_error.mp caught)).2
      simp [completionSurvives, Completion.ofExcept, Completion.error?, defined]

theorem ServerSetup.asked_caught (server : ServerSetup σ θ F) (stream : σ) :
    Caught (server.asked stream) := by
  rw [asked_eq, readRequest]
  split
  · exact caught_error.mpr rfl
  · exact caught_ok _

/-- The answering stage survives what the router comes to exactly if that is a
response or a `std::exception`, and has a response then. -/
theorem answerRequest_survives_iff (session : Session σ θ)
    (native : (server.outcome asked session.shared).1 ≠ .error .foreign) :
    let completion := (server.answerRequest (.completed (.ofExcept asked)) session).1
    (completionSurvives completion = true ↔ Caught (server.outcome asked session.shared).1) ∧
      (completionSurvives completion = true → ∃ resp, completion = .value resp) := by
  have done := @answerRequest_holds _ _ _ server asked session
  generalize server.answerRequest (.completed (.ofExcept asked)) session = completion at done ⊢
  match completion with
  | (.value resp, after) =>
      obtain ⟨result, ⟨came, -⟩, due⟩ := done
      have caught : Caught (server.outcome asked session.shared).1 := by
        rw [← due_isSome_iff server, came, due]
        rfl
      exact ⟨iff_of_true rfl caught, fun _ => ⟨resp, rfl⟩⟩
  | (.error fault, after) =>
      obtain ⟨⟨came, -⟩, unnamed⟩ := done
      have uncaught : fault.caught ≠ true := by
        intro caught
        have named := (what_isSome_iff server.outOfRange fault).mpr caught
        simp [unnamed] at named
      rw [came] at native ⊢
      have crashed : fault.undefined = true := by
        by_contra defined
        exact uncaught ((Fault.caught_iff fault).mpr ⟨fun foreign => native (by rw [foreign]), by simpa using defined⟩)
      have dies : ¬ completionSurvives (.error fault : Completion Fault VariantResponse) = true := by
        simp [completionSurvives, Completion.error?, crashed]
      exact ⟨iff_of_false dies (by simpa using uncaught), fun survives => absurd survives dies⟩
  | (.stopped, after) => exact done.elim

/-- The last stage prints what a caught exception says. -/
theorem finishRequest_value (calls : server.calls.ThrowCaught) {result : Except Fault Unit}
    (caught : Caught result) (session : Session σ θ) :
    (server.finishRequest (.completed (.ofExcept result)) session).1 = .value () := by
  have closes : ∀ stream, Caught (server.streamMaker.close server.calls stream).1 := by
    intro stream
    cases server.streamMaker with
    | tcp => exact calls.2 stream
    | ssl => exact calls.2 _
  have closed : Sender.Triple (fun _ : Session σ θ => True)
      (server.handleFinish (.completed (.ofExcept result)))
      ⟨fun _ _ => True, fun fault _ => fault.caught = true, fun _ => False⟩ := by
    intro start _
    cases result with
    | error fault => exact caught_error.mp caught
    | ok _ =>
        have close := closes start.stream
        simp only [ServerSetup.handleFinish, Sender.andThen, Sender.letValue, Sender.invoke,
          Sender.completed, Completion.ofExcept]
        cases ended : (server.streamMaker.close server.calls start.stream).1 with
        | ok _ => trivial
        | error fault =>
            rw [ended] at close
            exact caught_error.mp close
  have finished : Sender.Post.Holds ⟨fun _ _ => True, fun _ _ => False, fun _ => False⟩
      (server.finishRequest (.completed (.ofExcept result)) session) := by
    refine handleError_spec closed (fun _ _ _ _ _ => trivial) (fun fault _ caught unnamed => ?_)
      session trivial
    have named := (what_isSome_iff server.outOfRange fault).mpr caught
    simp [unnamed] at named
  generalize server.finishRequest (.completed (.ofExcept result)) session = ended at finished ⊢
  obtain ⟨completion, after⟩ := ended
  cases completion with
  | value done => rfl
  | error fault | stopped => exact finished.elim

/-- What a stage does to a client that goes on: the process survives every stage but
the answering of a request with undefined behavior, and the client is written its
response in time. -/
structure Client.GoesOn (server : ServerSetup σ θ F) (asked : Except Fault VariantRequest)
    (shared : θ) (stage : Stage) (client next : Client σ) : Prop where
  survives : next.job.survives = true ↔
    (stage = .answer → Caught (server.outcome asked shared).1)
  steady : next.job.survives = true → next.Steady
  written : (.send ∈ client.job.behind → ∃ resp, .write resp ∈ client.calls) →
    .send ∈ next.job.behind → ∃ resp, .write resp ∈ next.calls

namespace Client.GoesOn

variable {stream : σ} {made : List StreamCall}

theorem of_requested (caught : Caught asked) {next : Client σ}
    (job : next.job = .requested (.ofExcept asked)) :
    (⟨stream, made, .ready⟩ : Client σ).GoesOn server asked shared .read next where
  survives := by
    rw [job]
    exact iff_of_true (completionSurvives_of_caught caught) nofun
  steady _ := ⟨by simp [job], by simp [job]⟩
  written _ sent := absurd sent (by simp [job, Job.behind])

theorem of_answered {request : Completion Fault VariantRequest} {next : Client σ}
    {completion : Completion Fault VariantResponse} (job : next.job = .answered completion)
    (survives : completionSurvives completion = true ↔ Caught (server.outcome asked shared).1)
    (steady : completionSurvives completion = true → ∃ resp, completion = .value resp) :
    (⟨stream, made, .requested request⟩ : Client σ).GoesOn server asked shared .answer next where
  survives := by
    rw [job]
    exact survives.trans ⟨fun caught _ => caught, fun caught => caught rfl⟩
  steady on := by
    rw [job] at on
    refine ⟨fun other same => ?_, by simp [job]⟩
    rw [job, Job.answered.injEq] at same
    exact same ▸ steady on
  written _ sent := absurd sent (by simp [job, Job.behind])

theorem of_sent {response : Completion Fault VariantResponse} {next : Client σ}
    {result : Except Fault Unit} {resp : VariantResponse} (job : next.job = .sent (.ofExcept result))
    (caught : Caught result) (writes : .write resp ∈ next.calls) :
    (⟨stream, made, .answered response⟩ : Client σ).GoesOn server asked shared .send next where
  survives := by
    rw [job]
    exact iff_of_true (completionSurvives_of_caught caught) nofun
  steady _ := by
    refine ⟨by simp [job], fun other same => ?_⟩
    rw [job, Job.sent.injEq] at same
    exact ⟨result, same.symm, caught⟩
  written _ _ := ⟨resp, writes⟩

theorem of_finished {completion : Completion Fault Unit} {next : Client σ}
    (job : next.job = .finished (.value ())) (kept : made <+: next.calls) :
    (⟨stream, made, .sent completion⟩ : Client σ).GoesOn server asked shared .finish next where
  survives := by
    rw [job]
    exact iff_of_true rfl nofun
  steady _ := ⟨by simp [job], by simp [job]⟩
  written before _ := (before (by simp [Job.behind])).imp fun _ member => kept.subset member

end Client.GoesOn

theorem Client.Steady.advance {client next : Client σ} {stage : Stage} (steady : client.Steady)
    (told : client.Told server Inv asked) (caught : Caught asked) (calls : server.calls.ThrowCaught)
    (native : (server.outcome asked shared).1 ≠ .error .foreign)
    (advanced : client.advance server stage shared = some (next, after)) :
    client.GoesOn server asked shared stage next := by
  obtain ⟨stream, made, job⟩ := client
  match stage, job with
  | .read, .ready =>
      obtain rfl : server.asked stream = asked := told.ready rfl
      cases advanced
      exact .of_requested caught rfl
  | .answer, .requested completion =>
      obtain rfl := told.requested completion rfl
      obtain ⟨survives, answered⟩ :=
        @answerRequest_survives_iff _ _ _ server asked ⟨stream, shared, made⟩ native
      cases advanced
      exact .of_answered rfl survives answered
  | .send, .answered completion =>
      obtain ⟨resp, rfl⟩ := steady.answered completion rfl
      cases advanced
      exact .of_sent rfl (calls.1 resp stream) (List.mem_append_right made (List.mem_singleton_self _))
  | .finish, .sent completion =>
      obtain ⟨result, rfl, sentCaught⟩ := steady.sent completion rfl
      have done := finishRequest_value calls sentCaught ⟨stream, shared, made⟩
      have kept := @finishRequest_calls _ _ _ server (.ofExcept result) ⟨stream, shared, made⟩
      cases advanced
      exact .of_finished (congrArg Job.finished done) ⟨_, kept.symm⟩
  | .read, .requested _ | .read, .answered _ | .read, .sent _ | .read, .finished _
  | .answer, .ready | .answer, .answered _ | .answer, .sent _ | .answer, .finished _
  | .send, .ready | .send, .requested _ | .send, .sent _ | .send, .finished _
  | .finish, .ready | .finish, .requested _ | .finish, .answered _ | .finish, .finished _ =>
      cases advanced

/-- While the process is there, no stage of a client has failed beyond its
handler. -/
structure Serving.Sound (server : ServerSetup σ θ F) (Inv : θ → Prop) (streams : Nat → σ)
    (serving : Serving σ θ) : Prop extends serving.Told server Inv streams where
  steady : serving.running = true → ∀ conn, (serving.pool.clients conn).Steady

namespace Serving

variable {streams : Nat → σ} {serving next : Serving σ θ} {event : ServingEvent}

theorem Sound.goesOn {staged : PoolEvent Nat} {client : Client σ} (sound : serving.Sound server Inv streams)
    (calls : server.calls.ThrowCaught) (running : serving.running = true)
    (native : ∀ stream shared, Inv shared →
      (server.outcome (server.asked stream) shared).1 ≠ .error .foreign)
    (advanced : (serving.pool.clients staged.conn).advance server staged.stage serving.pool.shared =
      some (client, shared)) :
    (serving.pool.clients staged.conn).GoesOn server (server.asked (streams staged.conn))
      serving.pool.shared staged.stage client :=
  (sound.steady running staged.conn).advance (sound.clients staged.conn) (server.asked_caught _) calls
    (native _ _ sound.shared) advanced

theorem Sound.preserved (sound : serving.Sound server Inv streams) (keeps : server.Keeps Inv)
    (calls : server.calls.ThrowCaught)
    (native : ∀ stream shared, Inv shared →
      (server.outcome (server.asked stream) shared).1 ≠ .error .foreign)
    (taken : step server serving event = some next) : next.Sound server Inv streams := by
  refine ⟨sound.toTold.preserved keeps taken, ?_⟩
  obtain ⟨running, ⟨accepted, chain, -, -, rfl⟩ | ⟨staged, client, shared, -, -, advanced, rfl⟩⟩ :=
    step_inv taken
  · exact sound.steady
  · intro survives conn
    by_cases mine : conn = staged.conn
    · subst mine
      simpa using (sound.goesOn calls running native advanced).steady survives
    · simpa [Function.update_of_ne mine] using sound.steady running conn

instance (event : ServingEvent) {P : Nat → Prop} [DecidablePred P] :
    Decidable (∀ conn, event = .stage ⟨conn, .answer⟩ → P conn) :=
  match event with
  | .stage ⟨conn, .answer⟩ => decidable_of_iff (P conn) (by simp)
  | .stage ⟨_, .read⟩ | .stage ⟨_, .send⟩ | .stage ⟨_, .finish⟩ | .accept _ => isTrue nofun

end Serving

end ChaiBeast.Server
