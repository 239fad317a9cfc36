import ChaiBeast.Routing.Agreement

namespace ChaiBeast.Routing

/-! The body type of a request: fixed by the reader of streams.hpp, erased in
`VariantRequest`, selected again when a handler is registered with the router
of http_server.hpp, and checked when `BodyHandlerImpl` of common_defs.hpp calls
the handler. -/

inductive BodyType where
  | file
  | string
  | dynamic
deriving Repr, DecidableEq

def VariantRequest.bodyType : VariantRequest → BodyType
  | .filebody _ => .file
  | .stringbody _ => .string
  | .dynamicbody _ => .dynamic

/-- `read()` over what `http::read` leaves in `request` and in `ec`. -/
def readRequest (received : Request × ErrorCode) : Except Fault VariantRequest :=
  match received.2 with
  | some message => .error (.runtimeError message)
  | none => .ok (.stringbody received.1)

def SocketStreamReader.read (received : Request × ErrorCode) : Except Fault VariantRequest :=
  readRequest received

def SSlStreamReader.read (received : Request × ErrorCode) : Except Fault VariantRequest :=
  readRequest received

/-- A function object as overload resolution sees it: the argument types for
which calling it compiles and returns a `VariantResponse`. -/
structure HandlerFunc (F : Type) where
  func : F
  takes : BodyType → Bool
  takesVariant : Bool

def DynBodyRequestHandler (h : HandlerFunc F) : Bool := h.takes .dynamic

def StringBodyRequestHandler (h : HandlerFunc F) : Bool := h.takes .string

/-- A call that reaches a handler function. -/
structure Invocation (F : Type) where
  func : F
  req : VariantRequest
  httpfunc : HttpFunction
deriving Repr, DecidableEq

/-- What is stored for a function: the function itself, or the lambda that
`BodyHandlerImpl` wraps around it. -/
inductive BodyHandler (F : Type) where
  | plain (func : F)
  | bodyHandlerImpl (reqTye : BodyType) (func : F)
deriving Repr, DecidableEq

def BodyHandler.handle : BodyHandler F → VariantRequest → HttpFunction → Except Fault (Invocation F)
  | .plain func, req, httpfunc => .ok ⟨func, req, httpfunc⟩
  | .bodyHandlerImpl reqTye func, req, httpfunc =>
      if reqTye = req.bodyType then .ok ⟨func, req, httpfunc⟩
      else .error (.runtimeError "Requested Type miss match".toList)

inductive AddMember where
  | addGetHandler
  | addPostHandler
  | addPutHandler
deriving Repr, DecidableEq

namespace AddMember

def verb : AddMember → Verb
  | addGetHandler => .get
  | addPostHandler => .post
  | addPutHandler => .put

/-- The body types of the overloads that are constrained by a concept. -/
def overloads : AddMember → List BodyType
  | addGetHandler => [.dynamic]
  | addPostHandler => [.dynamic, .string]
  | addPutHandler => [.dynamic]

/-- A satisfied constraint wins over the unconstrained overload, and two of them
are ambiguous.  `none` is a call that does not compile. -/
def resolve (member : AddMember) (h : HandlerFunc F) : Option (BodyHandler F) :=
  match member.overloads.filter h.takes with
  | [] => if h.takesVariant then some (.plain h.func) else none
  | [reqTye] => some (.bodyHandlerImpl reqTye h.func)
  | _ => none

end AddMember

/-- A handler that one of the members registered. -/
structure Selected (F : Type) where
  member : AddMember
  handler : HandlerFunc F
  stored : BodyHandler F
  resolved : member.resolve handler = some stored

inductive StoredHandler (F : Type) where
  | direct (func : F)
  | selected (registered : Selected F)

def StoredHandler.handle : StoredHandler F → VariantRequest → HttpFunction → Except Fault (Invocation F)
  | .direct func, req, httpfunc => .ok ⟨func, req, httpfunc⟩
  | .selected registered, req, httpfunc => registered.stored.handle req httpfunc

/-- The function that was registered. -/
def StoredHandler.func : StoredHandler F → F
  | .direct func => func
  | .selected registered =>
      match registered.stored with
      | .plain func | .bodyHandlerImpl _ func => func

/-- Whether a stored handler was registered for this type of body, or for any. -/
def StoredHandler.accepts : StoredHandler F → BodyType → Bool
  | .direct _, _ => true
  | .selected registered, bodyType =>
      match registered.stored with
      | .plain _ => true
      | .bodyHandlerImpl reqTye _ => reqTye == bodyType

/-- A stored handler calls the function that was registered, or refuses the type of
the body. -/
theorem StoredHandler.handle_eq (handler : StoredHandler F) (req : VariantRequest)
    (httpfunc : HttpFunction) :
    handler.handle req httpfunc =
      if handler.accepts req.bodyType then .ok ⟨handler.func, req, httpfunc⟩
      else .error (.runtimeError "Requested Type miss match".toList) := by
  match handler with
  | .direct func => rfl
  | .selected ⟨member, registered, .plain func, resolved⟩ => rfl
  | .selected ⟨member, registered, .bodyHandlerImpl reqTye func, resolved⟩ =>
      simp only [StoredHandler.handle, StoredHandler.func, StoredHandler.accepts, BodyHandler.handle,
        beq_iff_eq]

theorem StoredHandler.handle_accepted {handler : StoredHandler F} {req : VariantRequest}
    (accepted : handler.accepts req.bodyType = true) (httpfunc : HttpFunction) :
    handler.handle req httpfunc = .ok ⟨handler.func, req, httpfunc⟩ := by
  rw [handle_eq, if_pos accepted]

theorem StoredHandler.handle_refused {handler : StoredHandler F} {req : VariantRequest}
    (refused : handler.accepts req.bodyType = false) (httpfunc : HttpFunction) :
    handler.handle req httpfunc = .error (.runtimeError "Requested Type miss match".toList) := by
  rw [handle_eq, refused]
  rfl

namespace HttpRouter

def addSelected (router : HttpRouter (StoredHandler F)) (member : AddMember) (path : CppString)
    (h : HandlerFunc F) : Option (HttpRouter (StoredHandler F)) :=
  match resolved : member.resolve h with
  | none => none
  | some stored =>
      some (router.addHandler ⟨path, member.verb⟩ (.selected ⟨member, h, stored, resolved⟩))

def addGetHandler (router : HttpRouter (StoredHandler F)) (path : CppString) (h : HandlerFunc F) :
    Option (HttpRouter (StoredHandler F)) :=
  router.addSelected .addGetHandler path h

def addPostHandler (router : HttpRouter (StoredHandler F)) (path : CppString) (h : HandlerFunc F) :
    Option (HttpRouter (StoredHandler F)) :=
  router.addSelected .addPostHandler path h

def addPutHandler (router : HttpRouter (StoredHandler F)) (path : CppString) (h : HandlerFunc F) :
    Option (HttpRouter (StoredHandler F)) :=
  router.addSelected .addPutHandler path h

end HttpRouter

/-- Every handler in the tables has the property `P`. -/
def HttpRouter.AllHandlers (P : H → Prop) (router : HttpRouter H) : Prop :=
  ∀ t, ∀ entry ∈ (router.table t).entries, P entry.2

namespace HttpRouter

variable {H F : Type} {P : H → Prop}

theorem AllHandlers.empty : AllHandlers P ({} : HttpRouter H) := by
  intro t entry member
  simp at member

theorem AllHandlers.addHandler {router : HttpRouter H} (all : router.AllHandlers P)
    (mapper : RequestMapper) {h : H} (holds : P h) : (router.addHandler mapper h).AllHandlers P := by
  intro t entry member
  rw [table_addHandler] at member
  split at member
  · rcases FlatMap.mem_assign member with old | ⟨new, _⟩
    · exact all t entry old
    · rw [new]
      exact holds
  · exact all t entry member

theorem AllHandlers.addSelected {P : StoredHandler F → Prop} {member : AddMember}
    {router next : HttpRouter (StoredHandler F)} {path : CppString} {h : HandlerFunc F}
    (all : router.AllHandlers P)
    (holds : ∀ registered : Selected F, registered.handler = h → P (.selected registered))
    (added : router.addSelected member path h = some next) : next.AllHandlers P := by
  unfold HttpRouter.addSelected at added
  split at added
  · contradiction
  · cases added
    exact all.addHandler _ (holds _ rfl)

end HttpRouter

theorem readRequest_ok {received : Request × ErrorCode} {req : VariantRequest}
    (delivered : readRequest received = .ok req) : req = .stringbody received.1 := by
  unfold readRequest at delivered
  split at delivered
  · contradiction
  · cases delivered
    rfl

/-- On a request with a string body, an overload chosen for a dynamic body fails
and every other one calls the function. -/
theorem handle_of_resolve {member : AddMember} {h : HandlerFunc F} {stored : BodyHandler F}
    (resolved : member.resolve h = some stored)
    (concept : DynBodyRequestHandler h = true ∨ StringBodyRequestHandler h = true)
    (message : Request) (httpfunc : HttpFunction) :
    stored.handle (.stringbody message) httpfunc =
      if DynBodyRequestHandler h then .error (.runtimeError "Requested Type miss match".toList)
      else .ok ⟨h.func, .stringbody message, httpfunc⟩ := by
  by_cases dynamic : DynBodyRequestHandler h = true
  · rw [if_pos dynamic]
    rw [DynBodyRequestHandler] at dynamic
    have typed : stored = .bodyHandlerImpl .dynamic h.func := by
      cases member <;> cases string : h.takes .string <;>
        simp [AddMember.resolve, AddMember.overloads, dynamic, string] at resolved <;>
        exact resolved.symm
    rw [typed]
    rfl
  · have string := concept.resolve_left dynamic
    rw [if_neg dynamic]
    rw [DynBodyRequestHandler] at dynamic
    rw [StringBodyRequestHandler] at string
    cases member with
    | addPostHandler =>
        simp [AddMember.resolve, AddMember.overloads, dynamic, string] at resolved
        subst stored
        rfl
    | addGetHandler | addPutHandler =>
        simp [AddMember.resolve, AddMember.overloads, dynamic] at resolved
        obtain ⟨_, rfl⟩ := resolved
        rfl

/-- A request that a reader delivers is routed to a handler, and that handler
itself is called with it, exactly if the handler was not registered as one for
a dynamic body. -/
theorem handler_called_iff {router : HttpRouter (StoredHandler F)} {received : Request × ErrorCode}
    {req : VariantRequest} {httpfunc : HttpFunction} {key : RequestMapper}
    {registered : Selected F}
    (delivered : SocketStreamReader.read received = .ok req ∨ SSlStreamReader.read received = .ok req)
    (parsed : parseFunction req.target = .ok httpfunc)
    (found : router.find ⟨httpfunc.name, req.method⟩ = some (key, .selected registered))
    (concept : DynBodyRequestHandler registered.handler = true ∨
      StringBodyRequestHandler registered.handler = true) :
    router.processRequest StoredHandler.handle req =
        .ok ⟨registered.handler.func, req,
          { httpfunc with params := httpfunc.params ++ appendedParams key.path httpfunc.name }⟩ ↔
      DynBodyRequestHandler registered.handler = false := by
  obtain rfl : req = .stringbody received.1 := by
    rcases delivered with tcp | ssl
    · exact readRequest_ok tcp
    · exact readRequest_ok ssl
  have dispatched := HttpRouter.dispatch_of_find parsed found
  simp only [HttpRouter.processRequest, dispatched, ok_bind, StoredHandler.handle,
    handle_of_resolve registered.resolved concept]
  cases DynBodyRequestHandler registered.handler <;> simp

theorem handler_called_iff_post :
    let h : HandlerFunc Nat := ⟨7, (· == .string), false⟩
    let registered : Selected Nat := ⟨.addPostHandler, h, .bodyHandlerImpl .string 7, rfl⟩
    let router : HttpRouter (StoredHandler Nat) :=
      ({} : HttpRouter _).addHandler ⟨"/upload".toList, .post⟩ (.selected registered)
    let message : Request := ⟨.post, "/upload".toList, 11, "x".toList, by decide⟩
    router.processRequest StoredHandler.handle (.stringbody message) =
      .ok ⟨7, .stringbody message, ⟨"/upload".toList, []⟩⟩ := by
  intro h registered router message
  exact (@handler_called_iff Nat router (message, none) _ ⟨"/upload".toList, []⟩
    ⟨"/upload".toList, .post⟩ registered (.inl rfl) (by decide) rfl (.inr rfl)).mpr rfl

end ChaiBeast.Routing
