import ChaiBeast.Routing.FlatMap
import ChaiBeast.Routing.RequestMapper
import ChaiBeast.Routing.TargetParser

namespace ChaiBeast.Routing

/-! `HttpRouter` of include/http_server.hpp.  Handlers are an arbitrary type:
routing only stores and returns them, and `processRequest` is told how to call
one. -/

/-- A request as `http::read` delivers it.  Beast refuses a header of more than
8 KiB, far less than an `int` counts. -/
structure Request where
  method : Verb
  target : CppString
  version : Nat
  body : CppString
  short : target.length < 2 ^ 31
deriving Repr, DecidableEq

inductive VariantRequest where
  | filebody (req : Request)
  | stringbody (req : Request)
  | dynamicbody (req : Request)
deriving Repr, DecidableEq

namespace VariantRequest

def message : VariantRequest → Request
  | filebody req | stringbody req | dynamicbody req => req

def target (reqVariant : VariantRequest) : CppString := reqVariant.message.target

def method (reqVariant : VariantRequest) : Verb := reqVariant.message.method

end VariantRequest

inductive HandlerTable where
  | get | post | delete
deriving Repr, DecidableEq

structure HttpRouter (H : Type) where
  getHandlers : FlatMap RequestMapper H := {}
  postHandlers : FlatMap RequestMapper H := {}
  deleteHandlers : FlatMap RequestMapper H := {}
deriving Repr

structure Registration (H : Type) where
  mapper : RequestMapper
  handler : H
deriving Repr

/-- What `process_request` hands over: the stored key, its handler, and the
parameters the handler is called with. -/
structure Dispatch (H : Type) where
  key : RequestMapper
  handler : H
  httpfunc : HttpFunction
deriving Repr, DecidableEq

/-- Every verb that is not listed falls into the GET table. -/
def handlerForVerb : Verb → HandlerTable
  | .get => .get
  | .put | .post => .post
  | .delete => .delete
  | _ => .get

/-- The body of `process_request` over any way of finding an entry. -/
def dispatchFrom (find : RequestMapper → Option (RequestMapper × H)) (req : VariantRequest) :
    Except Fault (Dispatch H) := do
  let httpfunc ← parseFunction req.target
  match find ⟨httpfunc.name, req.method⟩ with
  | some iter =>
      let bound ← extractParamsFromPath httpfunc iter.1.path httpfunc.name
      return ⟨iter.1, iter.2, bound⟩
  | none => .error (.fileNotFound httpfunc.name)

namespace HttpRouter

variable {H : Type} {router : HttpRouter H}

def table (router : HttpRouter H) : HandlerTable → FlatMap RequestMapper H
  | .get => router.getHandlers
  | .post => router.postHandlers
  | .delete => router.deleteHandlers

def setTable (router : HttpRouter H) (t : HandlerTable) (handlers : FlatMap RequestMapper H) :
    HttpRouter H :=
  match t with
  | .get => { router with getHandlers := handlers }
  | .post => { router with postHandlers := handlers }
  | .delete => { router with deleteHandlers := handlers }

def addHandler (router : HttpRouter H) (mapper : RequestMapper) (h : H) : HttpRouter H :=
  router.setTable (handlerForVerb mapper.method)
    ((router.table (handlerForVerb mapper.method)).assign mapper h)

def find (router : HttpRouter H) (key : RequestMapper) : Option (RequestMapper × H) :=
  (router.table (handlerForVerb key.method)).find key

/-- `process_request` up to the call of the handler. -/
def dispatch (router : HttpRouter H) (req : VariantRequest) : Except Fault (Dispatch H) :=
  dispatchFrom router.find req

def processRequest (router : HttpRouter H)
    (handle : H → VariantRequest → HttpFunction → Except Fault ρ) (req : VariantRequest) :
    Except Fault ρ := do
  let call ← router.dispatch req
  handle call.handler req call.httpfunc

def registerAll (router : HttpRouter H) (calls : List (Registration H)) : HttpRouter H :=
  calls.foldl (fun router call => router.addHandler call.mapper call.handler) router

@[simp] theorem registerAll_nil (router : HttpRouter H) : router.registerAll [] = router := rfl

@[simp] theorem registerAll_cons (router : HttpRouter H) (call : Registration H)
    (calls : List (Registration H)) :
    router.registerAll (call :: calls) =
      (router.addHandler call.mapper call.handler).registerAll calls := rfl

@[simp] theorem table_empty (t : HandlerTable) : (({} : HttpRouter H).table t).entries = [] := by
  cases t <;> rfl

theorem table_addHandler (router : HttpRouter H) (mapper : RequestMapper) (h : H)
    (t : HandlerTable) :
    (router.addHandler mapper h).table t =
      if handlerForVerb mapper.method = t then (router.table t).assign mapper h
      else router.table t := by
  unfold addHandler
  cases handlerForVerb mapper.method <;> cases t <;> rfl

end HttpRouter

theorem parsed_short {req : VariantRequest} {httpfunc : HttpFunction}
    (parsed : parseFunction req.target = .ok httpfunc) : httpfunc.name.length < 2 ^ 31 :=
  (parseFunction_name_length parsed).trans_lt req.message.short

theorem dispatchFrom_congr {find other : RequestMapper → Option (RequestMapper × H)}
    {req : VariantRequest} (same : ∀ name, find ⟨name, req.method⟩ = other ⟨name, req.method⟩) :
    dispatchFrom find req = dispatchFrom other req := by
  simp only [dispatchFrom, same]

theorem dispatchFrom_ok {find : RequestMapper → Option (RequestMapper × H)} {req : VariantRequest}
    {call : Dispatch H} (dispatched : dispatchFrom find req = .ok call) :
    ∃ httpfunc, parseFunction req.target = .ok httpfunc ∧
      find ⟨httpfunc.name, req.method⟩ = some (call.key, call.handler) ∧
      extractParamsFromPath httpfunc call.key.path httpfunc.name = .ok call.httpfunc := by
  cases parsed : parseFunction req.target with
  | error fault => simp [dispatchFrom, parsed] at dispatched
  | ok httpfunc =>
      cases found : find ⟨httpfunc.name, req.method⟩ with
      | none => simp [dispatchFrom, parsed, found] at dispatched
      | some iter =>
          cases bound : extractParamsFromPath httpfunc iter.1.path httpfunc.name with
          | error fault =>
              simp [dispatchFrom, parsed, found, bound] at dispatched
          | ok extracted =>
              simp only [dispatchFrom, parsed, found, bound, ok_bind, pure_eq_ok,
                Except.ok.injEq] at dispatched
              subst call
              exact ⟨httpfunc, rfl, found, bound⟩

theorem HttpRouter.find_matches {router : HttpRouter H} {key : RequestMapper}
    {entry : RequestMapper × H} (found : router.find key = some entry) :
    (entry.1 == key) = true :=
  List.find?_some (p := fun v : RequestMapper × H => v.1 == key) found

end ChaiBeast.Routing
