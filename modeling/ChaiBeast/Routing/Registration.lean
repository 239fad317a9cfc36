import ChaiBeast.Data.OrderedMap
import ChaiBeast.Routing.Router

namespace ChaiBeast.Routing

open ChaiBeast.Data

/-! What `add_handler` is for: the routes form a map in order of first
registration, keyed by the exact pair of path text and method.  The tables of
the router follow that map as long as the template matcher, which decides where
a registration lands, agrees with equality of keys. -/

variable {H : Type}

def orderedRoutes (calls : List (Registration H)) : List (RequestMapper × H) :=
  calls.foldl (fun routes call => OrderedMap.insert call.mapper call.handler routes) []

def orderedDispatch (routes : List (RequestMapper × H)) (req : VariantRequest) :
    Except Fault (Dispatch H) :=
  dispatchFrom (fun key => routes.find? fun route => route.1 == key) req

/-- The matcher finds `mapper` itself when it is registered and nothing
otherwise. -/
def HttpRouter.RegistersExactly (router : HttpRouter H) (mapper : RequestMapper) : Prop :=
  (router.find mapper).map Prod.fst =
    if ∃ route ∈ (router.table (handlerForVerb mapper.method)).entries, route.1 = mapper then
      some mapper
    else none

instance (router : HttpRouter H) (mapper : RequestMapper) :
    Decidable (router.RegistersExactly mapper) :=
  inferInstanceAs (Decidable (_ = _))

def HttpRouter.ExactRun (router : HttpRouter H) : List (Registration H) → Prop
  | [] => True
  | call :: calls =>
      router.RegistersExactly call.mapper ∧
        (router.addHandler call.mapper call.handler).ExactRun calls

instance HttpRouter.decidableExactRun :
    (router : HttpRouter H) → (calls : List (Registration H)) → Decidable (router.ExactRun calls)
  | _, [] => isTrue trivial
  | router, call :: calls =>
      @instDecidableAnd _ _ _
        (decidableExactRun (router.addHandler call.mapper call.handler) calls)

/-- Every table holds the routes of its own methods, in the order of the map. -/
def Follows (router : HttpRouter H) (routes : List (RequestMapper × H)) : Prop :=
  ∀ t, (router.table t).entries = routes.filter fun route => handlerForVerb route.1.method == t

theorem assign_eq_insert {map : FlatMap RequestMapper H} {mapper : RequestMapper} {h : H}
    (exact : (map.find mapper).map Prod.fst =
      if ∃ route ∈ map.entries, route.1 = mapper then some mapper else none) :
    (map.assign mapper h).entries = OrderedMap.insert mapper h map.entries := by
  rcases map.assign_cases mapper h with
    ⟨front, hit, back, shape, missed, matched, found, assigned⟩ | ⟨missed, found, assigned⟩
  · have hitKey : hit.1 = mapper := by
      rw [found] at exact
      split at exact
      · simpa using exact
      · simp at exact
    have fresh : ∀ entry ∈ front, entry.1 ≠ mapper := by
      intro entry member same
      have unmatched := missed entry member
      rw [same] at unmatched
      rw [hitKey, unmatched] at matched
      contradiction
    obtain ⟨stored, old⟩ := hit
    dsimp only at hitKey
    subst hitKey
    rw [assigned, shape, OrderedMap.insert_of_stored fresh]
  · have fresh : ∀ entry ∈ map.entries, entry.1 ≠ mapper := by
      intro entry member same
      rw [found, if_pos ⟨entry, member, same⟩] at exact
      contradiction
    rw [assigned, OrderedMap.insert_of_fresh fresh]

theorem Follows.empty : Follows ({} : HttpRouter H) [] := by
  intro t
  simp

theorem Follows.addHandler {router : HttpRouter H} {routes : List (RequestMapper × H)}
    (follows : Follows router routes) {mapper : RequestMapper} (h : H)
    (exact : router.RegistersExactly mapper) :
    Follows (router.addHandler mapper h) (OrderedMap.insert mapper h routes) := by
  intro t
  rw [HttpRouter.table_addHandler,
    OrderedMap.filter_insert (fun key : RequestMapper => handlerForVerb key.method == t)]
  by_cases own : handlerForVerb mapper.method = t
  · subst own
    simp only [if_true, beq_self_eq_true]
    rw [assign_eq_insert exact, follows]
  · have foreign : (handlerForVerb mapper.method == t) = false := by simpa using own
    simp only [if_neg own, foreign, Bool.false_eq_true, if_false]
    exact follows t

theorem Follows.registerAll {router : HttpRouter H} {routes : List (RequestMapper × H)}
    (follows : Follows router routes) {calls : List (Registration H)}
    (exact : router.ExactRun calls) :
    Follows (router.registerAll calls)
      (calls.foldl (fun routes call => OrderedMap.insert call.mapper call.handler routes) routes) := by
  induction calls generalizing router routes with
  | nil => exact follows
  | cons call calls ih => exact ih (follows.addHandler call.handler exact.1) exact.2

theorem Follows.find {router : HttpRouter H} {routes : List (RequestMapper × H)}
    (follows : Follows router routes) (key : RequestMapper) :
    router.find key = routes.find? fun route => route.1 == key := by
  rw [HttpRouter.find, FlatMap.find, follows, List.find?_filter]
  congr 1
  funext route
  cases matched : route.1 == key with
  | false => simp
  | true => simp [RequestMapper.beq_method matched]

theorem mem_orderedRoutes {calls : List (Registration H)} {mapper : RequestMapper} :
    mapper ∈ (orderedRoutes calls).map Prod.fst ↔ mapper ∈ calls.map Registration.mapper := by
  have fold : ∀ (calls : List (Registration H)) (routes : List (RequestMapper × H)),
      mapper ∈ (calls.foldl (fun routes call =>
          OrderedMap.insert call.mapper call.handler routes) routes).map Prod.fst ↔
        mapper ∈ routes.map Prod.fst ∨ mapper ∈ calls.map Registration.mapper := by
    intro calls
    induction calls with
    | nil => simp
    | cons call calls ih =>
        intro routes
        rw [List.foldl_cons, ih, OrderedMap.keys_insert, List.map_cons, List.mem_cons]
        split
        · rename_i stored
          constructor
          · intro known
            rcases known with old | later
            · exact .inl old
            · exact .inr (.inr later)
          · intro known
            rcases known with old | rfl | later
            · exact .inl old
            · exact .inl stored
            · exact .inr later
        · rw [List.mem_append, List.mem_singleton, or_assoc]
  simpa [orderedRoutes] using fold calls []

theorem orderedRoutes_distinct (calls : List (Registration H)) :
    ((orderedRoutes calls).map Prod.fst).Nodup := by
  have fold : ∀ (calls : List (Registration H)) (routes : List (RequestMapper × H)),
      (routes.map Prod.fst).Nodup →
      ((calls.foldl (fun routes call =>
          OrderedMap.insert call.mapper call.handler routes) routes).map Prod.fst).Nodup := by
    intro calls
    induction calls with
    | nil => exact fun _ distinct => distinct
    | cons call calls ih => exact fun _ distinct => ih _ (OrderedMap.insert_distinct _ _ distinct)
  exact fold calls [] .nil

/-- Along every run of exact registrations the router serves each request as
the ordered map does.  One more exact registration of a new route leaves every
request that it does not match alone; one of a known route adds no entry and
replaces the handler of that route only. -/
theorem registerAll_serves_ordered (calls : List (Registration H))
    (exact : ({} : HttpRouter H).ExactRun calls) :
    let router := ({} : HttpRouter H).registerAll calls
    (∀ req, router.dispatch req = orderedDispatch (orderedRoutes calls) req) ∧
    (∀ (handle : H → VariantRequest → HttpFunction → Except Fault ρ) req,
      router.processRequest handle req = do
        let call ← orderedDispatch (orderedRoutes calls) req
        handle call.handler req call.httpfunc) ∧
    ∀ mapper h, router.RegistersExactly mapper →
      (mapper ∉ calls.map Registration.mapper →
        ∀ req, (∀ httpfunc, parseFunction req.target = .ok httpfunc →
            (mapper == ⟨httpfunc.name, req.method⟩) = false) →
          (router.addHandler mapper h).dispatch req = router.dispatch req) ∧
      (mapper ∈ calls.map Registration.mapper →
        (∀ t, ((router.addHandler mapper h).table t).entries.map Prod.fst =
          (router.table t).entries.map Prod.fst) ∧
        ∀ key, (router.addHandler mapper h).find key =
          (router.find key).map fun route => if route.1 = mapper then (mapper, h) else route) := by
  intro router
  have follows : Follows router (orderedRoutes calls) := Follows.empty.registerAll exact
  have served : ∀ req, router.dispatch req = orderedDispatch (orderedRoutes calls) req :=
    fun req => dispatchFrom_congr fun name => follows.find ⟨name, req.method⟩
  refine ⟨served, fun handle req => by simp only [HttpRouter.processRequest, served req], ?_⟩
  intro mapper h registers
  have next := follows.addHandler h registers
  refine ⟨?_, ?_⟩
  · intro unknown req unmatched
    have fresh : ∀ entry ∈ orderedRoutes calls, entry.1 ≠ mapper := by
      intro entry member same
      exact unknown (mem_orderedRoutes.mp (List.mem_map.mpr ⟨entry, member, same⟩))
    cases parsed : parseFunction req.target with
    | error fault => simp [HttpRouter.dispatch, dispatchFrom, parsed]
    | ok httpfunc =>
        have found : (router.addHandler mapper h).find ⟨httpfunc.name, req.method⟩ =
            router.find ⟨httpfunc.name, req.method⟩ := by
          rw [next.find, follows.find, OrderedMap.insert_of_fresh fresh, List.find?_append]
          simp [unmatched httpfunc parsed]
        simp only [HttpRouter.dispatch, dispatchFrom, parsed, found, ok_bind]
  · intro known
    have stored := mem_orderedRoutes.mpr known
    refine ⟨?_, ?_⟩
    · intro t
      rw [next t, follows t]
      have keys := congrArg (List.filter fun key : RequestMapper => handlerForVerb key.method == t)
        (OrderedMap.keys_insert mapper h (orderedRoutes calls))
      rw [if_pos stored] at keys
      simpa only [List.filter_map, Function.comp_def] using keys
    · intro key
      rw [next.find, follows.find]
      exact OrderedMap.find?_insert h stored (orderedRoutes_distinct calls) (· == key)

theorem registerAll_serves_ordered_dump :
    let calls : List (Registration Nat) :=
      [⟨⟨"/dump/{name}/data".toList, .get⟩, 0⟩, ⟨⟨"/dump/entries".toList, .get⟩, 1⟩,
        ⟨⟨"/dump/{name}/data".toList, .get⟩, 2⟩]
    ({} : HttpRouter Nat).ExactRun calls ∧
      ∀ req, (({} : HttpRouter Nat).registerAll calls).dispatch req =
        orderedDispatch (orderedRoutes calls) req :=
  ⟨by decide, (@registerAll_serves_ordered Nat Unit _ (by decide)).1⟩

theorem literal_overwrites_template :
    let calls : List (Registration Nat) :=
      [⟨⟨"/a/{x}/c".toList, .get⟩, 0⟩, ⟨⟨"/a/b/c".toList, .get⟩, 1⟩]
    let req : VariantRequest := .stringbody ⟨.get, "/a/q/c".toList, 11, [], by decide⟩
    (({} : HttpRouter Nat).registerAll calls).dispatch req ≠
        orderedDispatch (orderedRoutes calls) req ∧
      ((({} : HttpRouter Nat).registerAll calls).dispatch req).map Dispatch.handler = .ok 1 ∧
      (orderedDispatch (orderedRoutes calls) req).map Dispatch.handler = .ok 0 := by
  decide

end ChaiBeast.Routing
