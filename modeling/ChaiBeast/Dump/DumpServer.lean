import ChaiBeast.Dump.Routes
import ChaiBeast.Server.HttpServer

namespace ChaiBeast.Dump

open Data.Transition Http Routing Server

/-! The dump server as dump_server.cpp runs it. -/

variable {σ θ : Type}

namespace DumpUploader

/-- The members that the handlers are bound to.  The files that exist may be
different at each call. -/
def invoke (uploader : DumpUploader) (beast : Beast) (exist : θ → CppString → Except Fault Bool)
    (invocation : Invocation DumpHandler) (files : θ) : Except Fault VariantResponse × θ :=
  let ⟨func, req, httpfunc⟩ := invocation
  match func with
  | .processUpload => (uploader.processUpload beast (exist files) req.message httpfunc, files)
  | .entries => (uploader.entries beast (exist files) req.message httpfunc, files)

end DumpUploader

/-- The server of `main`, which does not compile if a registration does not. -/
def dumpServer (root : CppString) (beast : Beast) (exist : θ → CppString → Except Fault Bool)
    (streamMaker : StreamMaker) (calls : StreamCalls σ) (outOfRange : CppString) :
    Option (HttpServer σ θ DumpHandler) :=
  (DumpUploader.register {}).map fun router =>
    { router, streamMaker, calls, outOfRange, invoke := (DumpUploader.mk root).invoke beast exist }

section

variable {root outOfRange : CppString} {beast : Beast} {exist : θ → CppString → Except Fault Bool}
  {streamMaker : StreamMaker} {calls : StreamCalls σ} {self : HttpServer σ θ DumpHandler}

theorem dumpServer_calls (made : dumpServer root beast exist streamMaker calls outOfRange = some self) :
    self.calls = calls := by
  obtain ⟨router, -, rfl⟩ := Option.map_eq_some_iff.mp made
  rfl

theorem dumpServer_uncalled
    (made : dumpServer root beast exist streamMaker calls outOfRange = some self) {message : Request}
    {httpfunc : HttpFunction} {entry : RequestMapper × StoredHandler DumpHandler}
    {invocation : Invocation DumpHandler} : ¬ self.Called message httpfunc entry invocation := by
  intro called
  obtain ⟨router, registered, rfl⟩ := Option.map_eq_some_iff.mp made
  have fails := registered_handlers_fail registered called.parsed called.found
  have reached := router.processRequest_eq StoredHandler.handle (.stringbody message)
  simp only [VariantRequest.target, VariantRequest.method, VariantRequest.message, called.parsed,
    called.found, ok_bind] at reached
  have accepted : entry.2.accepts (VariantRequest.stringbody message).bodyType = true := called.accepted
  rw [fails, StoredHandler.handle_accepted accepted] at reached
  cases reached

/-- No run of the dump server ever serves a dump or the list of them.  All that
a client is written are pages with status 500: for a request that could not be
read, for a path without a route, and, for each path with one, that the body of
the request has the wrong type. -/
theorem dump_server_never_serves
    (made : dumpServer root beast exist streamMaker calls outOfRange = some self) (files : θ)
    (streams : Nat → σ) (events : List ServingEvent) :
    Always (Serving.step self.server) (fun serving => ∀ conn resp,
      .write resp ∈ (serving.pool.clients conn).calls →
        ∃ text, resp = processApplicationError text ∧
          let (message, ec) := (calls.httpRead (streams conn)).1
          (ec = some text ∨ ec = none ∧ ∃ httpfunc, parseFunction message.target = .ok httpfunc ∧
            text = match self.router.find ⟨httpfunc.name, message.method⟩ with
              | none => "File Not Found:".toList ++ httpfunc.name
              | some _ => "Requested Type miss match".toList))
      (Serving.start files streams) events := by
  rw [← dumpServer_calls made]
  have keeps : self.server.Keeps fun _ => True := fun _ _ _ _ => trivial
  refine (Serving.clients_told keeps trivial streams events).imp fun _ told conn resp written => ?_
  rcases HttpServer.mayAnswer_cases ((told.clients conn).written written) with
    ⟨text, refused, rfl⟩ | ⟨-, httpfunc, entry, invocation, -, -, called, -⟩
  · refine ⟨text, rfl, ?_⟩
    cases refused with
    | unread failed => exact .inl failed
    | unrouted httpfunc delivered parsed absent named =>
        exact .inr ⟨delivered, httpfunc, parsed, by rw [absent]; exact named⟩
    | mistyped httpfunc entry delivered parsed found _ named =>
        exact .inr ⟨delivered, httpfunc, parsed, by rw [found]; exact named⟩
    | thrown _ _ _ _ _ _ called _ _ _ => exact absurd called (dumpServer_uncalled made)
  · exact absurd called (dumpServer_uncalled made)

end

theorem dump_server_never_serves_entries :
    let calls : StreamCalls Unit :=
      { httpRead := fun _ => ((⟨.get, entriesRoute, 11, [], by decide⟩, none), ())
        httpWrite := fun _ _ => (.ok (), ())
        shutdown := id
        close := fun _ => (.ok (), ()) }
    let accept (signal : Signal) : ServingEvent := .accept ⟨0, signal⟩
    let events : List ServingEvent :=
      [accept .start, accept (.accepted none .unfinished), accept .start, .stage ⟨0, .read⟩,
        .stage ⟨0, .answer⟩, .stage ⟨0, .send⟩]
    ∃ self, dumpServer "/dumps/".toList ⟨[], fun header _ => header, fun header _ => header⟩
        (fun (_ : Unit) _ => .ok true) .tcp calls "basic_string::substr".toList = some self ∧
      ∃ last, run (Serving.step self.server) (Serving.start () fun _ => ()) events = some last ∧
        ∀ resp, .write resp ∈ (last.pool.clients 0).calls →
          ∃ text, resp = processApplicationError text := by
  intro calls accept events
  refine ⟨_, rfl, _, rfl, fun resp written => ?_⟩
  have never := @dump_server_never_serves Unit Unit "/dumps/".toList "basic_string::substr".toList
    ⟨[], fun header _ => header, fun header _ => header⟩ (fun _ _ => .ok true) .tcp calls _ rfl ()
    (fun _ => ()) events events [] (List.append_nil _).symm _ rfl 0 resp written
  exact ⟨_, never.choose_spec.1⟩

end ChaiBeast.Dump
