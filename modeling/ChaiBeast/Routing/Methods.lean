import ChaiBeast.Routing.Router

namespace ChaiBeast.Routing

/-! Requests of different methods share tables, but not entries: what a router
does for one method is what the registrations of that method made it. -/

variable {H : Type} {m : Verb}

/-- `only` holds exactly the entries of method `m` that `shared` holds in the
table of `m`. -/
def MethodView (m : Verb) (shared only : HttpRouter H) : Prop :=
  (shared.table (handlerForVerb m)).restrict (fun key => key.method == m) =
    only.table (handlerForVerb m)

private theorem beq_keeps_method (m : Verb) (stored key : RequestMapper)
    (matched : (stored == key) = true) : (stored.method == m) = (key.method == m) := by
  rw [RequestMapper.beq_method matched]

theorem MethodView.empty (m : Verb) : MethodView m ({} : HttpRouter H) {} := by
  unfold MethodView
  cases handlerForVerb m <;> rfl

theorem MethodView.addHandler {shared only : HttpRouter H} (view : MethodView m shared only)
    (mapper : RequestMapper) (h : H) :
    MethodView m (shared.addHandler mapper h)
      (if mapper.method == m then only.addHandler mapper h else only) := by
  unfold MethodView at view ⊢
  rw [HttpRouter.table_addHandler]
  by_cases sameMethod : mapper.method = m
  · subst sameMethod
    simp only [beq_self_eq_true, if_true, HttpRouter.table_addHandler]
    rw [FlatMap.restrict_assign _ (beq_keeps_method mapper.method)]
    simp only [beq_self_eq_true, if_true, view]
  · have otherMethod : (mapper.method == m) = false := by simpa using sameMethod
    simp only [otherMethod, Bool.false_eq_true, if_false]
    split
    · rw [FlatMap.restrict_assign _ (beq_keeps_method m)]
      simp only [otherMethod, Bool.false_eq_true, if_false, view]
    · exact view

theorem MethodView.registerAll {shared only : HttpRouter H} (view : MethodView m shared only)
    (calls : List (Registration H)) :
    MethodView m (shared.registerAll calls)
      (only.registerAll (calls.filter fun call => call.mapper.method == m)) := by
  induction calls generalizing shared only with
  | nil => exact view
  | cons call calls ih =>
      have next := ih (view.addHandler call.mapper call.handler)
      cases kept : call.mapper.method == m with
      | true => simpa [List.filter_cons, kept] using next
      | false => simpa [List.filter_cons, kept] using next

theorem MethodView.find {shared only : HttpRouter H} (view : MethodView m shared only)
    (name : CppString) : shared.find ⟨name, m⟩ = only.find ⟨name, m⟩ := by
  unfold MethodView at view
  unfold HttpRouter.find
  rw [← view, FlatMap.find_restrict _ (beq_keeps_method m) (by simp)]

/-- Every run of registrations serves a request as the registrations of the
request's own method alone would, up to and including the handler call. -/
theorem processRequest_own_method (calls : List (Registration H)) (req : VariantRequest)
    (handle : H → VariantRequest → HttpFunction → Except Fault ρ) :
    let own := calls.filter fun call => call.mapper.method == req.method
    (({} : HttpRouter H).registerAll calls).dispatch req =
        (({} : HttpRouter H).registerAll own).dispatch req ∧
      (({} : HttpRouter H).registerAll calls).processRequest handle req =
        (({} : HttpRouter H).registerAll own).processRequest handle req := by
  intro own
  have view := (MethodView.empty (H := H) req.method).registerAll calls
  have dispatched : (({} : HttpRouter H).registerAll calls).dispatch req =
      (({} : HttpRouter H).registerAll own).dispatch req :=
    dispatchFrom_congr fun name => view.find name
  exact ⟨dispatched, by simp only [HttpRouter.processRequest, dispatched]⟩

end ChaiBeast.Routing
