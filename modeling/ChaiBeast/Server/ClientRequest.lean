import ChaiBeast.Data.Sender
import ChaiBeast.Http.Message
import ChaiBeast.Routing.BodyHandlers
import ChaiBeast.Server.AcceptChain

namespace ChaiBeast.Server

open Data Http Routing

/-! `handleClientRequest` of server.hpp: the sender that reads one request from
a client, has the router answer it, writes the response and closes the stream,
with the two `handle_error` stages between. -/

/-- The text that `what()` points to, with the one that the library gives to an
`out_of_range`.  Nothing catches what is no `std::exception`. -/
def what (outOfRange : CppString) : Fault → Option CppString
  | .outOfRange => some outOfRange
  | .fileNotFound error => some ("File Not Found:".toList ++ error)
  | .runtimeError text => some text
  | .foreign | .badSubscript | .overflow | .unreadHeader => none

/-- The operations on the stream of a client.  `shutdown` drops its error code. -/
structure StreamCalls (σ : Type) where
  httpRead : σ → (Request × ErrorCode) × σ
  httpWrite : VariantResponse → σ → Except Fault Unit × σ
  shutdown : σ → σ
  close : σ → Except Fault Unit × σ

/-- The template parameter of that name, over the state `θ` that the handlers
of all clients share. -/
structure Demultiplexer (θ F : Type) where
  getForwarder : CppString → Except Fault (Option F)
  forward : F → VariantRequest → θ → Except Fault VariantResponse × θ

structure ServerSetup (σ θ F : Type) where
  streamMaker : StreamMaker
  calls : StreamCalls σ
  router : Demultiplexer θ F
  outOfRange : CppString

inductive StreamCall where
  | read
  | write (resp : VariantResponse)
  | close
deriving Repr, DecidableEq

/-- What the sender works on: the client's stream, what the handlers share, and
the calls made on the stream so far. -/
structure Session (σ θ : Type) where
  stream : σ
  shared : θ
  calls : List StreamCall := []
deriving Repr, DecidableEq

variable {σ θ F : Type}

abbrev SessionSender (σ θ α : Type) := Sender (Session σ θ) Fault α

def StreamMaker.read : StreamMaker → Request × ErrorCode → Except Fault VariantRequest
  | .tcp => SocketStreamReader.read
  | .ssl => SSlStreamReader.read

def StreamMaker.close (calls : StreamCalls σ) : StreamMaker → σ → Except Fault Unit × σ
  | .tcp, stream => calls.close stream
  | .ssl, stream => calls.close (calls.shutdown stream)

/-- `handle_error` of handle_error.hpp. -/
def handleError (outOfRange : CppString) (handler : CppString → α) (sender : SessionSender σ θ α) :
    SessionSender σ θ α :=
  sender.letError fun exptr => (Sender.just exptr).andThen fun exptr session =>
    match what outOfRange exptr with
    | some text => (.ok (handler text), session)
    | none => (.error exptr, session)

def bytes (text : CppString) : Bytes :=
  text.map fun c => UInt8.ofNat c.toNat

/-- `text` is appended as the C string that `what()` returns. -/
def processApplicationError (text : CppString) : VariantResponse :=
  let resp : Header := ⟨500, 10, []⟩
  let body := "Internal Server error ".toList ++ cString text
  .stringbody (resp.set "Content-Length".toList (Nat.toDigits 10 body.length)) (bytes body)

/-- Prints the text. -/
def processSystemError (_text : CppString) : Unit := ()

theorem handleError_spec {before : Session σ θ → Prop} {sender : SessionSender σ θ α}
    {outOfRange : CppString} {handler : CppString → α} {value : α → Session σ θ → Prop}
    {error failure : Fault → Session σ θ → Prop} {stopped : Session σ θ → Prop}
    (first : Sender.Triple before sender ⟨value, error, stopped⟩)
    (caught : ∀ fault text after, error fault after → what outOfRange fault = some text →
      value (handler text) after)
    (passed : ∀ fault after, error fault after → what outOfRange fault = none → failure fault after) :
    Sender.Triple before (handleError outOfRange handler sender) ⟨value, failure, stopped⟩ := by
  refine first.letError fun fault => Sender.Triple.andThen
    (Sender.Triple.just (fun e after => e = fault ∧ error e after) fun _ holds => ⟨rfl, holds⟩)
    fun e after holds => ?_
  obtain ⟨rfl, holds⟩ := holds
  cases thrown : what outOfRange e with
  | some text => exact caught e text after holds thrown
  | none => exact passed e after holds thrown

namespace ServerSetup

variable (server : ServerSetup σ θ F)

def handleRead : SessionSender σ θ VariantRequest :=
  (Sender.just ()).andThen fun _ session =>
    let (received, stream) := server.calls.httpRead session.stream
    (server.streamMaker.read received, { session with stream, calls := session.calls ++ [.read] })

def selectForwarder (sender : SessionSender σ θ VariantRequest) :
    SessionSender σ θ (Option F × VariantRequest) :=
  sender.andThen fun request session =>
    ((server.router.getForwarder request.target).map (·, request), session)

def processRequest (sender : SessionSender σ θ (Option F × VariantRequest)) :
    SessionSender σ θ VariantResponse :=
  sender.andThen fun handlerRequestPair session =>
    match handlerRequestPair with
    | (none, _) => (.error (.runtimeError "Suggested forwarder type is null".toList), session)
    | (some handler, request) =>
        let (resp, shared) := server.router.forward handler request session.shared
        (resp, { session with shared })

def sendResponse (sender : SessionSender σ θ VariantResponse) : SessionSender σ θ Unit :=
  sender.andThen fun resVar session =>
    let (sent, stream) := server.calls.httpWrite resVar session.stream
    (sent, { session with stream, calls := session.calls ++ [.write resVar] })

def handleFinish (sender : SessionSender σ θ Unit) : SessionSender σ θ Unit :=
  sender.andThen fun _ session =>
    let (closed, stream) := server.streamMaker.close server.calls session.stream
    (closed, { session with stream, calls := session.calls ++ [.close] })

/-- From the request to the response, the first three stages and their handler. -/
def answerRequest (sender : SessionSender σ θ VariantRequest) : SessionSender σ θ VariantResponse :=
  handleError server.outOfRange processApplicationError
    (server.processRequest (server.selectForwarder sender))

def finishRequest (sender : SessionSender σ θ Unit) : SessionSender σ θ Unit :=
  handleError server.outOfRange processSystemError (server.handleFinish sender)

def handleClientRequest : SessionSender σ θ Unit :=
  server.finishRequest (server.sendResponse (server.answerRequest server.handleRead))

/-- What the router makes of a request. -/
def outcome (request : Except Fault VariantRequest) (shared : θ) :
    Except Fault VariantResponse × θ :=
  match request with
  | .error fault => (.error fault, shared)
  | .ok request =>
      match server.router.getForwarder request.target with
      | .error fault => (.error fault, shared)
      | .ok none => (.error (.runtimeError "Suggested forwarder type is null".toList), shared)
      | .ok (some handler) => server.router.forward handler request shared

/-- The response that a client is due: the router's, or the page that names the
exception. -/
def due (result : Except Fault VariantResponse) : Option VariantResponse :=
  match result with
  | .ok resp => some resp
  | .error fault => (what server.outOfRange fault).map processApplicationError

/-- What reading the request leaves. -/
def requested (session : Session σ θ) : Except Fault VariantRequest × Session σ θ :=
  let (received, stream) := server.calls.httpRead session.stream
  (server.streamMaker.read received, { session with stream, calls := session.calls ++ [.read] })

def result (session : Session σ θ) : Except Fault VariantResponse × θ :=
  server.outcome (server.requested session).1 session.shared

/-- The calls that the handling of a client makes on its stream. -/
def exchange (session : Session σ θ) : List StreamCall :=
  .read :: match server.due (server.result session).1 with
    | none => []
    | some resp => .write resp ::
        match (server.calls.httpWrite resp (server.requested session).2.stream).1 with
        | .ok _ => [.close]
        | .error _ => []

/-- The router came to `result`, which touches nothing of the client. -/
def Answers (request : Except Fault VariantRequest) (session : Session σ θ)
    (result : Except Fault VariantResponse) (after : Session σ θ) : Prop :=
  server.outcome request session.shared = (result, after.shared) ∧
    after = { session with shared := after.shared }

variable {server} {before : Session σ θ → Prop} {request : Except Fault VariantRequest}
  {session : Session σ θ}

/-- Selecting the forwarder and calling it, over a sender whose result is known. -/
theorem processRequest_spec {sender : SessionSender σ θ VariantRequest}
    (first : Sender.Triple before sender
      ⟨fun req after => request = .ok req ∧ after = session,
        fun fault after => request = .error fault ∧ after = session, fun _ => False⟩) :
    Sender.Triple before (server.processRequest (server.selectForwarder sender))
      ⟨fun resp => server.Answers request session (.ok resp),
        fun fault => server.Answers request session (.error fault), fun _ => False⟩ := by
  have read := first.weaken ⟨fun req after => request = .ok req ∧ after = session,
      fun fault => server.Answers request session (.error fault), fun _ => False⟩
    (fun _ _ holds => holds)
    (fun fault after holds => by
      obtain ⟨rfl, rfl⟩ := holds
      exact ⟨rfl, rfl⟩)
    (fun _ never => never)
  have selected : Sender.Triple before (server.selectForwarder sender)
      ⟨fun pair after => request = .ok pair.2 ∧
          server.router.getForwarder pair.2.target = .ok pair.1 ∧ after = session,
        fun fault => server.Answers request session (.error fault), fun _ => False⟩ := by
    refine read.andThen fun req after holds => ?_
    obtain ⟨rfl, rfl⟩ := holds
    cases found : server.router.getForwarder req.target with
    | ok handler => exact ⟨rfl, found, rfl⟩
    | error fault => exact ⟨by simp only [outcome, found], rfl⟩
  refine selected.andThen fun pair after holds => ?_
  obtain ⟨handler, req⟩ := pair
  obtain ⟨rfl, found, rfl⟩ := holds
  cases handler with
  | none => exact ⟨by simp only [outcome, found], rfl⟩
  | some handler =>
      cases called : server.router.forward handler req after.shared with
      | mk result shared =>
          have reached : server.outcome (.ok req) after.shared = (result, shared) := by
            simp only [outcome, found, called]
          simp only [called]
          cases result with
          | ok resp => exact ⟨reached, rfl⟩
          | error fault => exact ⟨reached, rfl⟩

theorem answerRequest_spec {sender : SessionSender σ θ VariantRequest}
    (first : Sender.Triple before sender
      ⟨fun req after => request = .ok req ∧ after = session,
        fun fault after => request = .error fault ∧ after = session, fun _ => False⟩) :
    Sender.Triple before (server.answerRequest sender)
      ⟨fun resp after => ∃ result, server.Answers request session result after ∧
          server.due result = some resp,
        fun fault after => server.Answers request session (.error fault) after ∧
          what server.outOfRange fault = none, fun _ => False⟩ := by
  have processed := (processRequest_spec first).weaken
    ⟨fun resp after => ∃ result, server.Answers request session result after ∧
        server.due result = some resp, fun fault => server.Answers request session (.error fault),
      fun _ => False⟩
    (fun resp _ answers => ⟨.ok resp, answers, rfl⟩) (fun _ _ answers => answers) (fun _ never => never)
  refine handleError_spec processed ?_ ?_
  · intro fault text after answers named
    exact ⟨.error fault, answers, by rw [due, named, Option.map_some]⟩
  · exact fun _ _ answers unnamed => ⟨answers, unnamed⟩

theorem handleRead_spec (server : ServerSetup σ θ F) (session : Session σ θ) :
    Sender.Triple (· = session) server.handleRead
    ⟨fun req after => (server.requested session).1 = .ok req ∧ after = (server.requested session).2,
      fun fault after => (server.requested session).1 = .error fault ∧
        after = (server.requested session).2, fun _ => False⟩ := by
  intro start same
  subst same
  have read : server.handleRead start =
      (.ofExcept (server.requested start).1, (server.requested start).2) := rfl
  rw [read]
  cases (server.requested start).1 with
  | ok req => exact ⟨rfl, rfl⟩
  | error fault => exact ⟨rfl, rfl⟩

/-- The session after its last call on the stream. -/
structure Ended (server : ServerSetup σ θ F) (session after : Session σ θ) : Prop where
  shared : after.shared = (server.result session).2
  calls : after.calls = session.calls ++ server.exchange session

/-- The session with its response written and the stream still open. -/
structure Sent (server : ServerSetup σ θ F) (session after : Session σ θ) : Prop where
  due : (server.due (server.result session).1).isSome
  shared : after.shared = (server.result session).2
  calls : after.calls ++ [.close] = session.calls ++ server.exchange session

/-- The session ended with a fault, which after the response is one of the
stream. -/
def Broken (server : ServerSetup σ θ F) (session : Session σ θ) (fault : Fault)
    (after : Session σ θ) : Prop :=
  server.Ended session after ∧
    ((server.due (server.result session).1).isSome ∨ what server.outOfRange fault = none)

theorem sendResponse_spec (session : Session σ θ) :
    Sender.Triple (· = session) (server.sendResponse (server.answerRequest server.handleRead))
      ⟨fun _ => server.Sent session, server.Broken session, fun _ => False⟩ := by
  have answered := (answerRequest_spec (handleRead_spec server session)).weaken
    ⟨fun resp after => ∃ result, server.Answers (server.requested session).1
        (server.requested session).2 result after ∧ server.due result = some resp,
      server.Broken session, fun _ => False⟩
    (fun _ _ answers => answers)
    (fun fault after answers => by
      obtain ⟨⟨came, kept⟩, unnamed⟩ := answers
      have undue : server.due (server.result session).1 = none := by
        rw [show server.result session = (.error fault, after.shared) from came, due, unnamed,
          Option.map_none]
      exact ⟨⟨(congrArg Prod.snd came).symm, by rw [kept, exchange, undue]; rfl⟩, .inr unnamed⟩)
    (fun _ never => never)
  refine answered.andThen fun resp after holds => ?_
  obtain ⟨result, ⟨came, kept⟩, due⟩ := holds
  have came : server.result session = (result, after.shared) := came
  have isDue : server.due (server.result session).1 = some resp := by rw [came]; exact due
  have stream : after.stream = (server.requested session).2.stream := by rw [kept]
  have calls : after.calls = session.calls ++ [.read] := by rw [kept]; rfl
  have shared : after.shared = (server.result session).2 := by rw [came]
  rw [stream]
  cases sent : (server.calls.httpWrite resp (server.requested session).2.stream).1 with
  | ok _ =>
      have exchanged : server.exchange session = [.read, .write resp, .close] := by
        simp only [exchange, isDue, sent]
      exact ⟨by rw [isDue]; rfl, shared, by simp [calls, exchanged]⟩
  | error fault =>
      have exchanged : server.exchange session = [.read, .write resp] := by
        simp only [exchange, isDue, sent]
      exact ⟨⟨shared, by simp [calls, exchanged]⟩, .inl (by rw [isDue]; rfl)⟩

theorem handleClientRequest_spec (server : ServerSetup σ θ F) (session : Session σ θ) :
    Sender.Triple (· = session) server.handleClientRequest
      ⟨fun _ after => server.Ended session after ∧ (server.due (server.result session).1).isSome,
        fun fault after => server.Ended session after ∧ what server.outOfRange fault = none,
        fun _ => False⟩ := by
  have finished : Sender.Triple (· = session)
      (server.handleFinish (server.sendResponse (server.answerRequest server.handleRead)))
      ⟨fun _ after => server.Ended session after ∧ (server.due (server.result session).1).isSome,
        server.Broken session, fun _ => False⟩ := by
    refine (sendResponse_spec session).andThen fun _ after sent => ?_
    have ended : ∀ stream, server.Ended session
        { after with stream, calls := after.calls ++ [.close] } := fun stream =>
      ⟨sent.shared, sent.calls⟩
    cases closed : (server.streamMaker.close server.calls after.stream).1 with
    | ok _ => exact ⟨ended _, sent.due⟩
    | error fault => exact ⟨ended _, .inl sent.due⟩
  refine handleError_spec finished ?_ fun _ _ broken unnamed => ⟨broken.1, unnamed⟩
  intro fault text after broken named
  refine ⟨broken.1, broken.2.resolve_right ?_⟩
  simp [named]

theorem handleClientRequest_ended (session : Session σ θ) :
    server.Ended session (server.handleClientRequest session).2 := by
  have done := handleClientRequest_spec server session session rfl
  generalize server.handleClientRequest session = completion at done ⊢
  match completion with
  | (.value _, _) | (.error _, _) => exact done.1
  | (.stopped, _) => exact done.elim

/-- A client is answered once.  The stream is read, the response that is due is
written, and the stream is closed if that succeeded; what the handlers share is
left as the router left it.  No `std::exception` leaves the sender, and it
completes without one only if a response was due. -/
theorem client_answered_once (server : ServerSetup σ θ F) (session : Session σ θ) :
    let (done, after) := server.handleClientRequest session
    after.shared = (server.result session).2 ∧
      after.calls = session.calls ++ server.exchange session ∧
      match done with
      | .value _ => (server.due (server.result session).1).isSome
      | .error fault => what server.outOfRange fault = none
      | .stopped => False := by
  have done := handleClientRequest_spec server session session rfl
  generalize server.handleClientRequest session = completion at done ⊢
  match completion with
  | (.value _, after) => exact ⟨done.1.shared, done.1.calls, done.2⟩
  | (.error _, after) => exact ⟨done.1.shared, done.1.calls, done.2⟩
  | (.stopped, _) => exact done.elim

end ServerSetup

end ChaiBeast.Server
