import ChaiBeast.Routing.Router

namespace ChaiBeast.Routing

/-! Query strings in their canonical form, and what they do to routing. -/

def encodePair (p : Parameter) : CppString := p.name ++ '=' :: p.value

def encodeQuery (params : List Parameter) : CppString :=
  ['&'].intercalate (params.map encodePair)

/-- Neither key nor value contains one of the two query separators. -/
def Parameter.Separable (p : Parameter) : Prop :=
  '&' ∉ p.name ∧ '=' ∉ p.name ∧ '&' ∉ p.value ∧ '=' ∉ p.value

instance (p : Parameter) : Decidable p.Separable := inferInstanceAs (Decidable (_ ∧ _))

theorem parsePairs_encode {params : List Parameter} (separable : ∀ p ∈ params, p.Separable) :
    (params.map encodePair).mapM parsePair = .ok params := by
  induction params with
  | nil => rfl
  | cons p params ih =>
      have clear := separable p (by simp)
      have head : parsePair (encodePair p) = .ok p := parsePair_join clear.2.1 clear.2.2.2
      have tail := ih (fun other member => separable other (by simp [member]))
      simp only [List.map_cons, List.mapM_cons, head, tail, ok_bind, pure_eq_ok]

theorem parseQuery_encode {params : List Parameter} (separable : ∀ p ∈ params, p.Separable) :
    (split (encodeQuery params) '&').mapM parsePair = .ok params := by
  rw [encodeQuery, split_intercalate]
  · exact parsePairs_encode separable
  · intro piece member
    obtain ⟨p, inParams, rfl⟩ := List.mem_map.mp member
    have clear := separable p inParams
    simp [encodePair, clear.1, clear.2.2.1]
  · intro single
    have first := congrArg List.head? single
    cases params <;> simp [encodePair] at first

theorem mem_encodeQuery {params : List Parameter} {c : Char} (notAmp : c ≠ '&') (notEq : c ≠ '=') :
    c ∈ encodeQuery params ↔ ∃ p ∈ params, c ∈ p.name ∨ c ∈ p.value := by
  have pair : ∀ p : Parameter, c ∈ encodePair p ↔ c ∈ p.name ∨ c ∈ p.value := by
    intro p
    simp [encodePair, notEq]
  unfold encodeQuery
  induction params with
  | nil => simp
  | cons p params ih =>
      cases params with
      | nil => simp [pair]
      | cons next params =>
          rw [List.map_cons, List.map_cons, List.intercalate_cons_cons]
          rw [List.map_cons] at ih
          simp only [List.mem_append, List.mem_singleton, notAmp, or_false, pair, ih]
          exact (List.exists_mem_cons_iff (fun p => c ∈ p.name ∨ c ∈ p.value) p _).symm

theorem slash_not_mem_encodeQuery {params : List Parameter} :
    '/' ∉ encodeQuery params ↔ ∀ p ∈ params, '/' ∉ p.name ∧ '/' ∉ p.value := by
  rw [mem_encodeQuery (by decide) (by decide)]
  simp only [not_exists, not_and, not_or]

theorem extractParamsFromPath_append (name : CppString) (front params : List Parameter)
    (handlerfuncname pathfuncname : CppString) :
    extractParamsFromPath ⟨name, front ++ params⟩ handlerfuncname pathfuncname =
      (extractParamsFromPath ⟨name, params⟩ handlerfuncname pathfuncname).map fun func =>
        { func with params := front ++ func.params } := by
  unfold extractParamsFromPath
  dsimp only
  split
  · cases accumulateEnds (getUnmatched handlerfuncname) pathfuncname with
    | error fault => rfl
    | ok endindices =>
        simp only [bind, Except.bind]
        split
        · rfl
        · split <;> simp [Except.map]
  · rfl

theorem parseFunction_encodeQuery {path : CppString} {params : List Parameter}
    (rooted : path.head? = some '/') (noQuery : '?' ∉ path)
    (separable : ∀ p ∈ params, p.Separable) (slashFree : '/' ∉ encodeQuery params) :
    parseFunction (path ++ '?' :: encodeQuery params) = .ok ⟨path, params⟩ := by
  have slash : '/' ∈ path := List.mem_of_mem_head? (by simp [rooted])
  rw [parseFunction_path_query slash noQuery slashFree, parseQuery_encode separable]
  rfl

theorem parseFunction_path {path : CppString} (rooted : path.head? = some '/')
    (noQuery : '?' ∉ path) : parseFunction path = .ok ⟨path, []⟩ :=
  parseFunction_no_query (List.mem_of_mem_head? (by simp [rooted])) noQuery

/-- With a slash in the query, the last slash of the target lies behind the
`?`, which therefore stays in the name. -/
theorem parseFunction_slash_in_query {path query : CppString} {func : HttpFunction}
    (slash : '/' ∈ query) (parsed : parseFunction (path ++ '?' :: query) = .ok func) :
    '?' ∈ func.name := by
  obtain ⟨front, last, rfl, lastClear⟩ := exists_last_split slash
  have target : path ++ '?' :: (front ++ '/' :: last) = (path ++ '?' :: front) ++ '/' :: last := by
    simp
  rw [target] at parsed
  by_cases queried : '?' ∈ last
  · obtain ⟨component, rest, rfl, componentClear⟩ := exists_first_split queried
    rw [parseFunction_query lastClear componentClear] at parsed
    cases pairs : (split rest '&').mapM parsePair with
    | error fault => simp [pairs, Except.map] at parsed
    | ok params =>
        simp only [pairs, Except.map, Except.ok.injEq] at parsed
        subst func
        simp
  · rw [parseFunction_plain lastClear queried] at parsed
    cases parsed
    simp

/-- The query leaves the name alone, and every router dispatches the request as
it does without the query, with the pairs in front of the path parameters,
exactly when no key and no value contains a slash. -/
theorem query_never_routes_iff {path : CppString} {params : List Parameter}
    (rooted : path.head? = some '/') (noQuery : '?' ∉ path)
    (separable : ∀ p ∈ params, p.Separable) :
    ((∃ func, parseFunction (path ++ '?' :: encodeQuery params) = .ok func ∧ func.name = path) ∧
      ∀ (H : Type) (router : HttpRouter H) (bare queried : VariantRequest),
        bare.target = path → queried.target = path ++ '?' :: encodeQuery params →
        queried.method = bare.method →
        router.dispatch queried = (router.dispatch bare).map fun call =>
          { call with httpfunc :=
            { call.httpfunc with params := params ++ call.httpfunc.params } }) ↔
      ∀ p ∈ params, '/' ∉ p.name ∧ '/' ∉ p.value := by
  rw [← slash_not_mem_encodeQuery]
  constructor
  · intro served slash
    obtain ⟨⟨func, parsed, name⟩, _⟩ := served
    exact noQuery (name ▸ parseFunction_slash_in_query slash parsed)
  · intro clear
    have parsed := parseFunction_encodeQuery rooted noQuery separable clear
    refine ⟨⟨_, parsed, rfl⟩, ?_⟩
    intro H router bare queried bareTarget queriedTarget sameMethod
    simp only [HttpRouter.dispatch, dispatchFrom, bareTarget, queriedTarget, sameMethod, parsed,
      parseFunction_path rooted noQuery, ok_bind]
    cases router.find ⟨path, bare.method⟩ with
    | none => rfl
    | some iter =>
        have appended := extractParamsFromPath_append path params [] iter.1.path path
        rw [List.append_nil] at appended
        dsimp only
        rw [appended]
        cases extractParamsFromPath ⟨path, []⟩ iter.1.path path <;> rfl

theorem query_never_routes_iff_page :
    ((∃ func, parseFunction ("/list".toList ++ '?' :: encodeQuery [⟨"page".toList, "2".toList⟩]) =
        .ok func ∧ func.name = "/list".toList) ∧
      ∀ (H : Type) (router : HttpRouter H) (bare queried : VariantRequest),
        bare.target = "/list".toList →
        queried.target = "/list".toList ++ '?' :: encodeQuery [⟨"page".toList, "2".toList⟩] →
        queried.method = bare.method →
        router.dispatch queried = (router.dispatch bare).map fun call =>
          { call with httpfunc :=
            { call.httpfunc with
              params := [⟨"page".toList, "2".toList⟩] ++ call.httpfunc.params } }) ↔
      ∀ p ∈ [(⟨"page".toList, "2".toList⟩ : Parameter)], '/' ∉ p.name ∧ '/' ∉ p.value :=
  query_never_routes_iff (by decide) (by decide) (by decide)

theorem slash_in_query_changes_route :
    let router : HttpRouter Nat := ({} : HttpRouter Nat).registerAll [⟨⟨"/list".toList, .get⟩, 0⟩]
    (parseFunction "/list?dir=/tmp".toList).map HttpFunction.name = .ok "/list?dir=/tmp".toList ∧
      router.dispatch (.stringbody ⟨.get, "/list?dir=/tmp".toList, 11, [], by decide⟩) =
        .error (.fileNotFound "/list?dir=/tmp".toList) ∧
      router.dispatch (.stringbody ⟨.get, "/list".toList, 11, [], by decide⟩) =
        .ok ⟨⟨"/list".toList, .get⟩, 0, ⟨"/list".toList, []⟩⟩ := by
  decide

end ChaiBeast.Routing
