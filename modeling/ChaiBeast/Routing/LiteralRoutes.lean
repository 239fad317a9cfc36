import ChaiBeast.Routing.Agreement

namespace ChaiBeast.Routing

open ChaiBeast.Data

/-! The order of registration against the matcher: in every table reached, an
entry never matches the key of a later one.  A route without placeholders
matches its own path only, so its own entry is the first to be found. -/

variable {H : Type}

structure LiteralPath (path : CppString) : Prop where
  plain : getMatched path = []
  slash : '/' ∈ path
  noQuery : '?' ∉ path

structure HttpRouter.Ordered (router : HttpRouter H) : Prop where
  owned : ∀ t, ∀ entry ∈ (router.table t).entries, handlerForVerb entry.1.method = t
  unshadowed : ∀ t, (router.table t).Unshadowed

namespace HttpRouter

theorem Ordered.empty : ({} : HttpRouter H).Ordered := by
  refine ⟨?_, ?_⟩
  · intro t entry member
    simp at member
  · intro t
    simp [FlatMap.Unshadowed]

theorem Ordered.addHandler {router : HttpRouter H} (ordered : router.Ordered)
    (mapper : RequestMapper) (h : H) : (router.addHandler mapper h).Ordered := by
  refine ⟨?_, ?_⟩
  · intro t entry member
    rw [table_addHandler] at member
    split at member
    · rename_i own
      rcases FlatMap.mem_assign member with old | ⟨_, fresh | ⟨handler, known⟩⟩
      · exact ordered.owned t entry old
      · rw [fresh]
        exact own
      · exact ordered.owned t (entry.1, handler) known
    · exact ordered.owned t entry member
  · intro t
    rw [table_addHandler]
    split
    · exact (ordered.unshadowed t).assign mapper h
    · exact ordered.unshadowed t

theorem Ordered.registerAll {router : HttpRouter H} (ordered : router.Ordered)
    (calls : List (Registration H)) : (router.registerAll calls).Ordered := by
  induction calls generalizing router with
  | nil => exact ordered
  | cons call calls ih => exact ih (ordered.addHandler call.mapper call.handler)

end HttpRouter

theorem getUnmatched_of_plain {path : CppString} (plain : getMatched path = []) :
    getUnmatched path = [path] := by
  have single := literals_length path
  rw [plain] at single
  obtain ⟨literal, only⟩ := List.length_eq_one_iff.mp single
  have whole := stitch_literals path
  rw [plain, only] at whole
  rcases getUnmatched_eq path with same | ⟨decorated, _⟩
  · rw [same, only]
    simpa using whole
  · exact absurd plain decorated

theorem beq_self_of_plain {path : CppString} (plain : getMatched path = []) (m : Verb) :
    ((⟨path, m⟩ : RequestMapper) == ⟨path, m⟩) = true := by
  have pieces := getUnmatched_of_plain plain
  have first := FirstAt.at_start path []
  rw [List.append_nil] at first
  refine RequestMapper.beq_iff.mpr ⟨rfl, [[]], [], ?_, ?_⟩
  · rw [pieces, scan_cons_of_firstAt [] first]
    rfl
  · rw [pieces]
    rfl

theorem appendedParams_of_plain {path : CppString} (plain : getMatched path = []) (s : CppString) :
    appendedParams path s = [] := by
  rw [appendedParams, if_neg]
  intro binds
  have several := binds.1
  simp [getUnmatched_of_plain plain] at several

theorem HttpRouter.Ordered.findIdx?_literal {router : HttpRouter H} (ordered : router.Ordered)
    {t : HandlerTable} {j : Nat} {entry : RequestMapper × H}
    (stored : (router.table t).entries[j]? = some entry) (plain : getMatched entry.1.path = []) :
    handlerForVerb entry.1.method = t ∧
      ((router.table t).entries.findIdx? fun v => v.1 == entry.1) = some j :=
  ⟨ordered.owned t entry (List.mem_of_getElem? stored),
    (ordered.unshadowed t).findIdx? stored (beq_self_of_plain plain entry.1.method)⟩

/-- In every router that registrations reach, no entry matches the key of a
later one.  A request for a literal route is therefore dispatched to the very
entry of that route, and a literal route just added gets its own requests. -/
theorem literal_routes_unshadowed (calls : List (Registration H)) :
    let router := ({} : HttpRouter H).registerAll calls
    (∀ t, ((router.table t).entries.map Prod.fst).Pairwise fun first later =>
      (first == later) = false) ∧
    (∀ t j entry, (router.table t).entries[j]? = some entry → LiteralPath entry.1.path →
      ∀ req : VariantRequest, req.target = entry.1.path → req.method = entry.1.method →
        handlerForVerb req.method = t ∧
        ((router.table t).entries.findIdx? fun v => v.1 == ⟨entry.1.path, req.method⟩) = some j ∧
        router.dispatch req = .ok ⟨entry.1, entry.2, ⟨entry.1.path, []⟩⟩) ∧
    ∀ p m (h : H), LiteralPath p → ∀ req : VariantRequest, req.target = p → req.method = m →
      ∃ call, (router.addHandler ⟨p, m⟩ h).dispatch req = .ok call ∧ call.handler = h := by
  intro router
  have ordered : router.Ordered := HttpRouter.Ordered.empty.registerAll calls
  refine ⟨ordered.unshadowed, ?_, ?_⟩
  · intro t j entry stored literal req target method
    obtain ⟨own, first⟩ := ordered.findIdx?_literal stored literal.plain
    have parsed := parseFunction_no_query literal.slash literal.noQuery
    have found : router.find ⟨entry.1.path, req.method⟩ = some entry := by
      rw [HttpRouter.find, method, own]
      exact FlatMap.find_eq_of_findIdx? first stored
    rw [← target] at parsed
    have dispatched := router.dispatch_of_find parsed (by rw [target]; exact found)
    rw [appendedParams_of_plain literal.plain, target] at dispatched
    exact ⟨method ▸ own, method ▸ first, dispatched⟩
  · intro p m h literal req target method
    subst target method
    have parsed := parseFunction_no_query literal.slash literal.noQuery
    obtain ⟨stored, found⟩ := @FlatMap.find_assign _ _ _ (router.table (handlerForVerb req.method))
      _ h (beq_self_of_plain literal.plain req.method)
    have served : (router.addHandler ⟨req.target, req.method⟩ h).find ⟨req.target, req.method⟩ =
        some (stored, h) := by
      rw [HttpRouter.find, HttpRouter.table_addHandler, if_pos rfl]
      exact found
    exact ⟨_, HttpRouter.dispatch_of_find parsed served, rfl⟩

theorem literal_routes_unshadowed_entries :
    let router := ({} : HttpRouter Nat).registerAll [⟨⟨"/dump/{name}/data".toList, .get⟩, 0⟩]
    let req : VariantRequest := .stringbody ⟨.get, "/dump/entries".toList, 11, [], by decide⟩
    ∃ call, (router.addHandler ⟨"/dump/entries".toList, .get⟩ 1).dispatch req = .ok call ∧
      call.handler = 1 := by
  intro router req
  exact (literal_routes_unshadowed [⟨⟨"/dump/{name}/data".toList, .get⟩, 0⟩]).2.2 _ _ 1
    ⟨by decide, by decide, by decide⟩ req rfl rfl

end ChaiBeast.Routing
