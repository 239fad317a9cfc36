import ChaiBeast.Dump.Uploader
import ChaiBeast.Routing.BodyHandlers

namespace ChaiBeast.Dump

open ChaiBeast.Routing

/-! The registrations of the `DumpUploader` constructor, with the body types that
its member functions take. -/

namespace DumpUploader

/-- `std::bind_front` of a member that takes a `DynamicbodyRequest`. -/
def boundMember (handler : DumpHandler) : HandlerFunc DumpHandler :=
  ⟨handler, (· == .dynamic), false⟩

def register (router : HttpRouter (StoredHandler DumpHandler)) :
    Option (HttpRouter (StoredHandler DumpHandler)) := do
  let router ← router.addGetHandler dumpRoute (boundMember .processUpload)
  router.addGetHandler entriesRoute (boundMember .entries)

end DumpUploader

theorem entries_never_called :
    let req : VariantRequest := .stringbody ⟨.get, entriesRoute, 11, [], by decide⟩
    SocketStreamReader.read (req.message, none) = .ok req ∧
      DynBodyRequestHandler (DumpUploader.boundMember .entries) = true ∧
      ((DumpUploader.register {}).map fun router =>
        (router.find ⟨entriesRoute, .get⟩).map Prod.fst) = some (some ⟨entriesRoute, .get⟩) ∧
      ((DumpUploader.register {}).map fun router =>
        router.processRequest StoredHandler.handle req) =
          some (.error (.runtimeError "Requested Type miss match".toList)) := by
  decide +kernel

/-- No request that a reader delivers reaches a handler of the uploader. -/
theorem registered_handlers_fail {router : HttpRouter (StoredHandler DumpHandler)}
    (registered : DumpUploader.register {} = some router) {message : Request}
    {httpfunc : HttpFunction} {entry : RequestMapper × StoredHandler DumpHandler}
    (parsed : parseFunction message.target = .ok httpfunc)
    (found : router.find ⟨httpfunc.name, message.method⟩ = some entry) :
    router.processRequest StoredHandler.handle (.stringbody message) =
      .error (.runtimeError "Requested Type miss match".toList) := by
  let Dynamic : StoredHandler DumpHandler → Prop := fun handler =>
    ∃ selected, handler = .selected selected ∧ DynBodyRequestHandler selected.handler = true
  have bound : ∀ handler (selected : Selected DumpHandler),
      selected.handler = DumpUploader.boundMember handler → Dynamic (.selected selected) :=
    fun handler selected same => ⟨selected, rfl, by rw [same]; rfl⟩
  have all : router.AllHandlers Dynamic := by
    simp only [DumpUploader.register, bind, Option.bind_eq_some_iff] at registered
    obtain ⟨middle, first, second⟩ := registered
    exact (HttpRouter.AllHandlers.empty.addSelected (bound _) first).addSelected (bound _) second
  obtain ⟨selected, stored, dynamic⟩ := all _ entry (List.mem_of_find?_eq_some found)
  have dispatched := @HttpRouter.dispatch_of_find _ router (.stringbody message) _ _ parsed found
  simp only [HttpRouter.processRequest, dispatched, ok_bind, stored, StoredHandler.handle,
    handle_of_resolve selected.resolved (.inl dynamic), dynamic, if_true]

end ChaiBeast.Dump
