import ChaiBeast.Routing.Agreement
import ChaiBeast.Routing.QueryParsing

namespace ChaiBeast.Routing

/-! What a handler sees of a path parameter when the client adds a query.  The
pairs of the query stand in front of the path parameters, and the first pair
with the name wins. -/

variable {H : Type} {router : HttpRouter H} {template s : CppString} {m : Verb} {h : H}
  {n v : CppString} {i : Nat}

/-- A query as it stands behind a path. -/
def querySuffix : Option CppString → CppString
  | none => []
  | some query => '?' :: query

def components : Option CppString → List CppString
  | none => []
  | some query => split query '&'

/-- The query parses, and its first pair named `n`, if any, has the value `v`. -/
def Harmless (query : Option CppString) (n v : CppString) : Prop :=
  (∀ p ∈ components query, '=' ∈ p) ∧
    ∀ pair, ((components query).map queryPair).find? (fun p => p.name == n) = some pair →
      pair.value = v

/-- The handler that `process_request` invokes, and the value of `httpfunc[n]`
that it is given. -/
def seenValue (router : HttpRouter H) (n : CppString) (req : VariantRequest) :
    Except Fault (H × CppString) :=
  router.processRequest (fun handler _ httpfunc => .ok (handler, httpfunc.get n)) req

theorem parseFunction_querySuffix (rooted : s.head? = some '/') (noQuery : '?' ∉ s)
    {query : Option CppString} (slashFree : ∀ text, query = some text → '/' ∉ text) :
    parseFunction (s ++ querySuffix query) =
      ((components query).mapM parsePair).map fun params => ⟨s, params⟩ := by
  cases query with
  | none =>
      rw [querySuffix, List.append_nil, parseFunction_path rooted noQuery]
      rfl
  | some text =>
      have slash : '/' ∈ s := List.mem_of_mem_head? (by simp [rooted])
      exact parseFunction_path_query slash noQuery (slashFree text rfl)

theorem find_zipWith_of_nodup {names values : List CppString} (distinct : names.Nodup)
    (named : names[i]? = some n) (valued : values[i]? = some v) :
    (List.zipWith Parameter.mk names values).find? (fun p => p.name == n) = some ⟨n, v⟩ := by
  induction names generalizing values i with
  | nil => simp at named
  | cons name names ih =>
      cases values with
      | nil => simp at valued
      | cons value values =>
          obtain ⟨fresh, distinct⟩ := List.nodup_cons.mp distinct
          cases i with
          | zero =>
              simp only [List.getElem?_cons_zero, Option.some.injEq] at named valued
              simp [named, valued]
          | succ i =>
              simp only [List.getElem?_cons_succ] at named valued
              have other : name ≠ n := fun same => fresh (same ▸ List.mem_of_getElem? named)
              simpa [other] using ih distinct named valued

theorem seenValue_eq (rooted : s.head? = some '/') (noQuery : '?' ∉ s)
    (selected : router.find ⟨s, m⟩ = some (⟨template, m⟩, h)) {query : Option CppString}
    (slashFree : ∀ text, query = some text → '/' ∉ text) {req : VariantRequest}
    (target : req.target = s ++ querySuffix query) (method : req.method = m) :
    seenValue router n req =
      ((components query).mapM parsePair).map fun params =>
        (h, (⟨s, params ++ appendedParams template s⟩ : HttpFunction).get n) := by
  have parsed := parseFunction_querySuffix rooted noQuery slashFree
  rw [← target] at parsed
  cases pairs : (components query).mapM parsePair with
  | error fault =>
      rw [pairs] at parsed
      simp only [seenValue, HttpRouter.processRequest, HttpRouter.dispatch, dispatchFrom, parsed,
        Except.map, error_bind]
  | ok params =>
      rw [pairs] at parsed
      subst method
      have dispatched := HttpRouter.dispatch_of_find parsed selected
      simp only [seenValue, HttpRouter.processRequest, dispatched, Except.map, ok_bind]

theorem get_append_iff {name : CppString} {front back : List Parameter}
    (last : back.find? (fun p => p.name == n) = some ⟨n, v⟩) :
    (⟨name, front ++ back⟩ : HttpFunction).get n = v ↔
      ∀ pair, front.find? (fun p => p.name == n) = some pair → pair.value = v := by
  cases first : front.find? fun p => p.name == n with
  | none => simp [HttpFunction.get, first, last]
  | some pair => simp [HttpFunction.get, first]

theorem appendedParams_find (literalEnd : (literals template).getLast? ≠ some [])
    (distinct : (getMatched template).Nodup)
    (named : (getMatched template)[i]? = some n) (bound : (boundTexts template s)[i]? = some v) :
    (appendedParams template s).find? (fun p => p.name == n) = some ⟨n, v⟩ := by
  have closed : ¬ EndsInPlaceholder template := fun ends => literalEnd ends.2
  have binds : BindsParameters template := by
    refine ⟨?_, closed⟩
    have within := (List.getElem?_eq_some_iff.mp named).1
    rw [getUnmatched_length, if_neg closed]
    omega
  rw [appendedParams, if_pos binds]
  exact find_zipWith_of_nodup distinct named bound

theorem seenValue_iff (rooted : s.head? = some '/') (noQuery : '?' ∉ s)
    (selected : router.find ⟨s, m⟩ = some (⟨template, m⟩, h))
    (literalEnd : (literals template).getLast? ≠ some []) (distinct : (getMatched template).Nodup)
    (named : (getMatched template)[i]? = some n) (bound : (boundTexts template s)[i]? = some v)
    {query : Option CppString} (slashFree : ∀ text, query = some text → '/' ∉ text)
    {req : VariantRequest} (target : req.target = s ++ querySuffix query) (method : req.method = m) :
    seenValue router n req = .ok (h, v) ↔ Harmless query n v := by
  have last := appendedParams_find literalEnd distinct named bound
  rw [seenValue_eq rooted noQuery selected slashFree target method, Harmless]
  by_cases assigned : ∀ p ∈ components query, '=' ∈ p
  · rw [parsePairs_of_mem assigned, and_iff_right assigned, ← @get_append_iff n v s _ _ last]
    simp [Except.map]
  · rw [parsePairs_of_not_mem (by simpa using assigned)]
    simp [Except.map, assigned]

/-- Whatever two queries a client adds, the handler sees the text of the path
under the name of a placeholder exactly if neither query breaks the parser nor
has a first pair of that name with another value. -/
theorem path_parameter_stable_iff (rooted : s.head? = some '/') (noQuery : '?' ∉ s)
    (selected : router.find ⟨s, m⟩ = some (⟨template, m⟩, h))
    (literalEnd : (literals template).getLast? ≠ some []) (distinct : (getMatched template).Nodup)
    (named : (getMatched template)[i]? = some n) (bound : (boundTexts template s)[i]? = some v)
    {first second : Option CppString} (firstSlashFree : ∀ text, first = some text → '/' ∉ text)
    (secondSlashFree : ∀ text, second = some text → '/' ∉ text) {req other : VariantRequest}
    (target : req.target = s ++ querySuffix first) (method : req.method = m)
    (otherTarget : other.target = s ++ querySuffix second) (otherMethod : other.method = m) :
    (seenValue router n req = seenValue router n other ∧ seenValue router n req = .ok (h, v)) ↔
      Harmless first n v ∧ Harmless second n v := by
  have here := seenValue_iff rooted noQuery selected literalEnd distinct named bound
    firstSlashFree target method
  have there := seenValue_iff rooted noQuery selected literalEnd distinct named bound
    secondSlashFree otherTarget otherMethod
  rw [← here, ← there]
  constructor
  · intro both
    exact ⟨both.2, both.1 ▸ both.2⟩
  · intro both
    exact ⟨both.1.trans both.2.symm, both.1⟩

theorem path_parameter_stable_iff_page :
    let router : HttpRouter Nat :=
      ({} : HttpRouter Nat).registerAll [⟨⟨"/dump/{name}/data".toList, .get⟩, 0⟩]
    let req : VariantRequest := .stringbody ⟨.get, "/dump/7/data".toList, 11, [], by decide⟩
    let other : VariantRequest := .stringbody ⟨.get, "/dump/7/data?page=2".toList, 11, [], by decide⟩
    (seenValue router "name".toList req = seenValue router "name".toList other ∧
      seenValue router "name".toList req = .ok (0, "7".toList)) ↔
        Harmless none "name".toList "7".toList ∧
          Harmless (some "page=2".toList) "name".toList "7".toList := by
  intro router req other
  exact @path_parameter_stable_iff _ router "/dump/{name}/data".toList "/dump/7/data".toList .get 0
    "name".toList "7".toList 0 (by decide) (by decide) (by decide) (by decide) (by decide)
    (by decide) (by decide) none (some "page=2".toList) (by simp) (by simp) req other rfl rfl rfl rfl

theorem query_overrides_path_parameter :
    let router : HttpRouter Nat :=
      ({} : HttpRouter Nat).registerAll [⟨⟨"/dump/{name}/data".toList, .get⟩, 0⟩]
    let req : VariantRequest := .stringbody ⟨.get, "/dump/7/data".toList, 11, [], by decide⟩
    let other : VariantRequest := .stringbody ⟨.get, "/dump/7/data?name=x".toList, 11, [], by decide⟩
    seenValue router "name".toList req = .ok (0, "7".toList) ∧
      seenValue router "name".toList other = .ok (0, "x".toList) := by
  decide

end ChaiBeast.Routing
