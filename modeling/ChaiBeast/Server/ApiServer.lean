import ChaiBeast.Routing.Api
import ChaiBeast.Server.HttpServer

namespace ChaiBeast.Server

open Data Data.Transition Http Routing

/-! A server of an api: every client that asks for an instance of one of its
routes is answered by the handler of that route. -/

variable {σ θ G : Type}

/-- What a client is told of the route of `handler`: what the call returned, or the
page for the exception it threw; and the page for the type of the body if the handler
was registered for another one. -/
def HttpServer.Answers (self : HttpServer σ θ G) (handler : StoredHandler G)
    (invocation : Invocation G) (resp : VariantResponse) : Prop :=
  if handler.accepts .string then
    ∃ shared, (self.invoke invocation shared).1 = .ok resp ∨ ∃ fault text,
      (self.invoke invocation shared).1 = .error fault ∧ what self.outOfRange fault = some text ∧
        resp = processApplicationError text
  else resp = processApplicationError "Requested Type miss match".toList

namespace HttpServer

variable {self : HttpServer σ θ G} {api : Api (StoredHandler G)} {route : Route (StoredHandler G)}
  {message : Request} {values : List CppString} {params : List Parameter}

theorem Called.of_asks {httpfunc : HttpFunction} {entry : RequestMapper × StoredHandler G}
    {invocation : Invocation G} (called : self.Called message httpfunc entry invocation)
    (serves : self.router = api.router) (member : route ∈ api.routes)
    (asks : route.Asks message values params) :
    invocation = route.call message values params ∧ route.handler.accepts .string = true := by
  have routable := api.routable route member
  have parsed := called.parsed
  rw [asks.parsed routable] at parsed
  cases parsed
  have found := called.found
  rw [serves, api.find_of_asks member asks] at found
  cases found
  have slashFree : ∀ value ∈ values, '/' ∉ value := fun value given => (asks.plain value given).1
  refine ⟨?_, called.accepted⟩
  rw [called.passed]
  simp only [Route.key, Template.appendedParams_fill routable.separated asks.aligned slashFree]
  rfl

theorem Refuses.of_asks {Inv : θ → Prop} {text : CppString}
    (refused : self.Refuses Inv (message, none) text) (serves : self.router = api.router)
    (member : route ∈ api.routes) (asks : route.Asks message values params) :
    self.Answers route.handler (route.call message values params) (processApplicationError text) := by
  cases refused with
  | unread failed => cases failed
  | unrouted httpfunc delivered parsed absent named =>
      rw [asks.parsed (api.routable route member)] at parsed
      cases parsed
      rw [serves, api.find_of_asks member asks] at absent
      cases absent
  | mistyped httpfunc entry delivered parsed found rejected named =>
      rw [asks.parsed (api.routable route member)] at parsed
      cases parsed
      rw [serves, api.find_of_asks member asks] at found
      cases found
      rw [Answers, if_neg (by simp [show route.handler.accepts .string = false from rejected]), named]
  | thrown httpfunc entry invocation shared fault delivered called holds failed named =>
      obtain ⟨passed, accepted⟩ := called.of_asks serves member asks
      rw [passed] at failed
      rw [Answers, if_pos accepted]
      exact ⟨shared, .inr ⟨fault, text, failed, named, rfl⟩⟩

/-- In every run of a server whose routes no request can confuse and whose handlers
throw nothing but `std::exception`s, every client that asks for an instance of a route
is written a response once its sending stage is over, and nothing but what the handler
of that very route returned for the values of the path and the pairs of the query, or
the page for why it did not. -/
theorem api_answers (serves : self.router = api.router)
    (caught : ∀ invocation shared, Caught (self.invoke invocation shared).1) (shared : θ)
    (streams : Nat → σ) (events : List ServingEvent) :
    Always (Serving.step self.server) (fun serving =>
      ∀ conn message, (self.calls.httpRead (streams conn)).1 = (message, none) →
      ∀ route ∈ api.routes, ∀ values params, route.Asks message values params →
        (.send ∈ (serving.pool.clients conn).job.behind →
          ∃ resp, .write resp ∈ (serving.pool.clients conn).calls) ∧
        ∀ resp, .write resp ∈ (serving.pool.clients conn).calls →
          self.Answers route.handler (route.call message values params) resp)
      (Serving.start shared streams) events := by
  have keeps : self.server.Keeps fun _ => True := fun _ _ _ _ => trivial
  refine (Serving.clients_told keeps trivial streams events).imp
    fun serving told conn message read route member values params asks => ⟨fun past => ?_, ?_⟩
  · refine (told.clients conn).answered_of_caught (fun shared _ => ?_) past
    rw [ServerSetup.asked_eq]
    refine (outcome_caught_iff fun invocation => caught invocation shared).mpr fun _ => ?_
    change Caught (parseFunction (self.calls.httpRead (streams conn)).1.1.target)
    rw [read, asks.parsed (api.routable route member)]
    exact caught_ok _
  · intro resp written
    have answered := mayAnswer_cases ((told.clients conn).written written)
    rw [read] at answered
    rcases answered with ⟨text, refused, rfl⟩ | ⟨-, httpfunc, entry, invocation, shared, -, called, returned⟩
    · exact refused.of_asks serves member asks
    · obtain ⟨passed, accepted⟩ := called.of_asks serves member asks
      rw [passed] at returned
      rw [Answers, if_pos accepted]
      exact ⟨shared, .inl returned⟩

/-- A server that answers with the name in the path. -/
def coreServer : HttpServer Request Nat Unit where
  router := (coreApi (.direct ()) (.direct ())).router
  streamMaker := .tcp
  calls := counting.asking.calls
  invoke := fun invocation count =>
    (.ok (.stringbody ⟨200, 11, []⟩ (bytes (invocation.httpfunc.get "name".toList))), count + 1)
  outOfRange := counting.outOfRange

theorem api_answers_core :
    let accept (signal : Signal) : ServingEvent := .accept ⟨0, signal⟩
    let events : List ServingEvent :=
      [accept .start, accept (.accepted none .unfinished), accept .start, .stage ⟨0, .read⟩,
        .stage ⟨0, .answer⟩, .stage ⟨0, .send⟩]
    let req : Request := ⟨.get, "/core/7/attachment?x=1".toList, 11, [], by decide⟩
    ∃ last, run (Serving.step coreServer.server) (Serving.start 0 fun _ => req) events = some last ∧
      (∃ resp, .write resp ∈ (last.pool.clients 0).calls) ∧
      ∀ resp, .write resp ∈ (last.pool.clients 0).calls →
        resp = .stringbody ⟨200, 11, []⟩ (bytes "7".toList) := by
  intro accept events req
  refine ⟨_, rfl, ?_⟩
  have asks : (⟨coreTemplate, .get, .direct ()⟩ : Route (StoredHandler Unit)).Asks req ["7".toList]
      [⟨"x".toList, "1".toList⟩] :=
    ⟨rfl, rfl, by decide, by decide, by decide, .inr (by decide)⟩
  have answered := @api_answers Request Nat Unit coreServer (coreApi (.direct ()) (.direct ())) rfl
    (fun _ _ => caught_ok _) 0 (fun _ => req) events events [] (List.append_nil _).symm _ rfl 0 _ rfl
    ⟨coreTemplate, .get, .direct ()⟩ (by simp [coreApi]) _ _ asks
  refine ⟨answered.1 (by decide), fun resp written => ?_⟩
  have told := answered.2 resp written
  unfold Answers at told
  split at told
  · obtain ⟨count, returned | ⟨fault, text, failed, -⟩⟩ := told
    · exact (Except.ok.inj returned).symm
    · cases failed
  · exact absurd rfl ‹_›

end HttpServer

end ChaiBeast.Server
