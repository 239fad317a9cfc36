import ChaiBeast.Routing.QueryParsing
import ChaiBeast.Server.Availability

namespace ChaiBeast.Server

open Data Data.Transition Http Routing

/-! `HttpServer` and `HttpsServer` of http_server.hpp: a server whose
demultiplexer is an `HttpRouter`, which is its own forwarder for every path. -/

/-- A server over the functions that its handlers call. -/
structure HttpServer (σ θ G : Type) where
  router : HttpRouter (StoredHandler G)
  streamMaker : StreamMaker
  calls : StreamCalls σ
  invoke : Invocation G → θ → Except Fault VariantResponse × θ
  outOfRange : CppString

namespace HttpServer

variable {σ θ G : Type}

def demultiplexer (self : HttpServer σ θ G) : Demultiplexer θ (HttpRouter (StoredHandler G)) where
  getForwarder _path := .ok (some self.router)
  forward router req shared :=
    match router.processRequest StoredHandler.handle req with
    | .error fault => (.error fault, shared)
    | .ok invocation => self.invoke invocation shared

def server (self : HttpServer σ θ G) : ServerSetup σ θ (HttpRouter (StoredHandler G)) where
  streamMaker := self.streamMaker
  calls := self.calls
  router := self.demultiplexer
  outOfRange := self.outOfRange

variable {self : HttpServer σ θ G} {resp : VariantResponse} {stream : σ}

/-- A request that is routed to an entry whose handler takes a string body: the
registered function is called with the request and with what the path binds behind
the parameters of the query. -/
structure Called (httpServer : HttpServer σ θ G) (message : Request) (httpfunc : HttpFunction)
    (entry : RequestMapper × StoredHandler G) (invocation : Invocation G) : Prop where
  parsed : parseFunction message.target = .ok httpfunc
  found : httpServer.router.find ⟨httpfunc.name, message.method⟩ = some entry
  accepted : entry.2.accepts .string = true
  passed : invocation = ⟨entry.2.func, .stringbody message,
    { httpfunc with params := httpfunc.params ++ appendedParams entry.1.path httpfunc.name }⟩

/-- The text of the page that a request without a response gets, by the reason
it has none. -/
inductive Refuses (self : HttpServer σ θ G) (Inv : θ → Prop) (received : Request × ErrorCode)
    (text : CppString) : Prop where
  | unread (failed : received.2 = some text)
  | unrouted (httpfunc : HttpFunction) (delivered : received.2 = none)
      (parsed : parseFunction received.1.target = .ok httpfunc)
      (absent : self.router.find ⟨httpfunc.name, received.1.method⟩ = none)
      (named : text = "File Not Found:".toList ++ httpfunc.name)
  | mistyped (httpfunc : HttpFunction) (entry : RequestMapper × StoredHandler G)
      (delivered : received.2 = none) (parsed : parseFunction received.1.target = .ok httpfunc)
      (found : self.router.find ⟨httpfunc.name, received.1.method⟩ = some entry)
      (rejected : entry.2.accepts .string = false)
      (named : text = "Requested Type miss match".toList)
  | thrown (httpfunc : HttpFunction) (entry : RequestMapper × StoredHandler G)
      (invocation : Invocation G) (shared : θ) (fault : Fault) (delivered : received.2 = none)
      (called : self.Called received.1 httpfunc entry invocation) (holds : Inv shared)
      (failed : (self.invoke invocation shared).1 = .error fault)
      (named : what self.outOfRange fault = some text)

theorem mayAnswer_cases {Inv : θ → Prop}
    (answers : self.server.MayAnswer Inv (self.server.asked stream) (some resp)) :
    (∃ text, self.Refuses Inv (self.calls.httpRead stream).1 text ∧
        resp = processApplicationError text) ∨
      (self.calls.httpRead stream).1.2 = none ∧ ∃ httpfunc entry invocation shared, Inv shared ∧
        self.Called (self.calls.httpRead stream).1.1 httpfunc entry invocation ∧
          (self.invoke invocation shared).1 = .ok resp := by
  obtain ⟨shared, holds, due⟩ := answers
  rw [ServerSetup.asked_eq] at due
  change self.server.due (self.server.outcome (readRequest (self.calls.httpRead stream).1) shared).1 =
    some resp at due
  generalize (self.calls.httpRead stream).1 = received at due ⊢
  obtain ⟨message, ec⟩ := received
  cases ec with
  | some text => exact .inl ⟨text, .unread rfl, (Option.some.inj due).symm⟩
  | none =>
      replace due : self.server.due (self.demultiplexer.forward self.router (.stringbody message)
        shared).1 = some resp := due
      simp only [demultiplexer, HttpRouter.processRequest_eq, VariantRequest.target,
        VariantRequest.method, VariantRequest.message] at due
      cases parsed : parseFunction message.target with
      | error fault =>
          obtain rfl := parseFunction_fault parsed
          rw [parsed] at due
          exact nomatch due
      | ok httpfunc =>
          simp only [parsed, ok_bind] at due
          cases found : self.router.find ⟨httpfunc.name, message.method⟩ with
          | none =>
              rw [found] at due
              exact .inl ⟨_, .unrouted httpfunc rfl parsed found rfl, (Option.some.inj due).symm⟩
          | some entry =>
              simp only [found] at due
              cases accepted : entry.2.accepts (VariantRequest.stringbody message).bodyType with
              | true =>
                  rw [StoredHandler.handle_accepted accepted] at due
                  have called : self.Called message httpfunc entry _ := ⟨parsed, found, accepted, rfl⟩
                  generalize Invocation.mk entry.2.func _ _ = invocation at due called
                  cases returned : (self.invoke invocation shared).1 with
                  | ok returns =>
                      simp only [returned] at due
                      cases due
                      exact .inr ⟨rfl, httpfunc, entry, invocation, shared, holds, called, returned⟩
                  | error fault =>
                      simp only [returned] at due
                      obtain ⟨text, named, rfl⟩ := Option.map_eq_some_iff.mp due
                      exact .inl ⟨text, .thrown _ _ _ _ fault rfl called holds returned named, rfl⟩
              | false =>
                  rw [StoredHandler.handle_refused accepted] at due
                  exact .inl ⟨_, .mistyped httpfunc entry rfl parsed found accepted rfl,
                    (Option.some.inj due).symm⟩

/-- Only the target of a request, and not the route, the body or the handler, can
make answering it undefined. -/
theorem outcome_cases {received : Request × ErrorCode} {shared : θ}
    (caught : ∀ invocation, Caught (self.invoke invocation shared).1) :
    Caught (self.server.outcome (readRequest received) shared).1 ∧
        (received.2 = none → Caught (parseFunction received.1.target)) ∨
      received.2 = none ∧ parseFunction received.1.target = .error .badSubscript ∧
        (self.server.outcome (readRequest received) shared).1 = .error .badSubscript := by
  obtain ⟨message, ec⟩ := received
  cases ec with
  | some text => exact .inl ⟨caught_error.mpr rfl, nofun⟩
  | none =>
      cases parsed : parseFunction message.target with
      | error fault =>
          obtain rfl := parseFunction_fault parsed
          refine .inr ⟨rfl, rfl, ?_⟩
          change (self.demultiplexer.forward self.router (.stringbody message) shared).1 = _
          simp only [demultiplexer, HttpRouter.processRequest_eq, VariantRequest.target,
            VariantRequest.message, parsed, error_bind]
      | ok httpfunc =>
          refine .inl ⟨?_, fun _ => caught_ok httpfunc⟩
          change Caught (self.demultiplexer.forward self.router (.stringbody message) shared).1
          simp only [demultiplexer, HttpRouter.processRequest_eq, VariantRequest.target,
            VariantRequest.method, VariantRequest.message, parsed, ok_bind]
          cases found : self.router.find ⟨httpfunc.name, message.method⟩ with
          | none => exact caught_error.mpr rfl
          | some entry =>
              dsimp only
              cases accepted : entry.2.accepts (VariantRequest.stringbody message).bodyType with
              | true =>
                  rw [StoredHandler.handle_accepted accepted]
                  exact caught _
              | false =>
                  rw [StoredHandler.handle_refused accepted]
                  exact caught_error.mpr rfl

theorem outcome_caught_iff {received : Request × ErrorCode} {shared : θ}
    (caught : ∀ invocation, Caught (self.invoke invocation shared).1) :
    Caught (self.server.outcome (readRequest received) shared).1 ↔
      (received.2 = none → Caught (parseFunction received.1.target)) := by
  rcases outcome_cases caught with ⟨answered, parsed⟩ | ⟨delivered, parsed, answered⟩
  · exact iff_of_true answered parsed
  · rw [answered, parsed, delivered]
    simp [Fault.caught]

theorem keeps_of_invoke {Inv : θ → Prop}
    (keeps : ∀ invocation shared, Inv shared → Inv (self.invoke invocation shared).2) :
    self.server.Keeps Inv := by
  intro router req shared holds
  change Inv (self.demultiplexer.forward router req shared).2
  unfold demultiplexer
  dsimp only
  split
  · exact holds
  · exact keeps _ shared holds

/-- In every state of every run, a property that the handlers keep holds of what
they share, and what a client was written is what the handler of its route
returned, in some such state, for the client's own request, or the page for the
reason why there is no such response. -/
theorem handlers_answer_own_requests {self : HttpServer σ θ G} {Inv : θ → Prop}
    (keeps : ∀ invocation shared, Inv shared → Inv (self.invoke invocation shared).2) {shared : θ}
    (holds : Inv shared) (streams : Nat → σ) (events : List ServingEvent) :
    Always (Serving.step self.server) (fun serving => Inv serving.pool.shared ∧ ∀ conn resp,
      .write resp ∈ (serving.pool.clients conn).calls →
        (∃ text, self.Refuses Inv (self.calls.httpRead (streams conn)).1 text ∧
          resp = processApplicationError text) ∨
        (self.calls.httpRead (streams conn)).1.2 = none ∧
          ∃ httpfunc entry invocation shared, Inv shared ∧
            self.Called (self.calls.httpRead (streams conn)).1.1 httpfunc entry invocation ∧
            (self.invoke invocation shared).1 = .ok resp)
      (Serving.start shared streams) events := by
  refine (Serving.clients_told (keeps_of_invoke keeps) holds streams events).imp
    fun _ reached => ⟨reached.1, fun conn resp written => ?_⟩
  exact mayAnswer_cases ((reached.2 conn).written written)

/-- `countingServer` behind a route. -/
def counting : HttpServer Unit Nat Unit where
  router := ({} : HttpRouter (StoredHandler Unit)).addHandler ⟨"/count".toList, .get⟩ (.direct ())
  streamMaker := .tcp
  calls := countingServer.calls
  invoke := fun _ count => (.ok (.emptybody ⟨200, count, []⟩), count + 1)
  outOfRange := "basic_string::substr".toList

theorem handlers_answer_own_requests_count :
    let accept (signal : Signal) : ServingEvent := .accept ⟨0, signal⟩
    let events : List ServingEvent :=
      [accept .start, accept (.accepted none .unfinished), accept .start, .stage ⟨0, .read⟩,
        .stage ⟨0, .answer⟩, .stage ⟨0, .send⟩]
    Always (Serving.step counting.server) (fun serving => 5 ≤ serving.pool.shared ∧
      ∀ resp, .write resp ∈ (serving.pool.clients 0).calls →
        (∃ text, resp = processApplicationError text) ∨
          ∃ count, 5 ≤ count ∧ resp = .emptybody ⟨200, count, []⟩)
      (Serving.start 5 fun _ => ()) events := by
  intro accept events
  refine (@handlers_answer_own_requests Unit Nat Unit counting (5 ≤ ·)
    (fun _ _ holds => Nat.le_succ_of_le holds) 5 (Nat.le_refl 5) (fun _ => ()) events).imp ?_
  intro serving reached
  refine ⟨reached.1, fun resp written => ?_⟩
  rcases reached.2 0 resp written with ⟨text, -, page⟩ | ⟨-, _, _, _, count, holds, -, returned⟩
  · exact .inl ⟨text, page⟩
  · exact .inr ⟨count, holds, (Except.ok.inj returned).symm⟩

/-- The same over streams that carry the request. -/
def counting.asking : HttpServer Request Nat Unit where
  router := counting.router
  streamMaker := .tcp
  calls :=
    { httpRead := fun req => ((req, none), req)
      httpWrite := fun _ req => (.ok (), req)
      shutdown := id
      close := fun req => (.ok (), req) }
  invoke := counting.invoke
  outOfRange := counting.outOfRange

end HttpServer

end ChaiBeast.Server
