import ChaiBeast.Routing.BodyHandlers
import ChaiBeast.Routing.QueryParsing
import ChaiBeast.Routing.RoundTrip

namespace ChaiBeast.Routing

open ChaiBeast.Data

/-! What a router is registered for: a set of routes of which no two match the
same request, and the requests that instantiate one of them. -/

variable {H : Type}

/-- No request is matched by both. -/
def RequestMapper.Apart (first second : RequestMapper) : Prop :=
  ∀ key, (first == key) = true → (second == key) = false

structure Template.Routable (template : Template) : Prop where
  separated : template.Separated
  rooted : template.first.head? = some '/'
  queryFree : ∀ piece ∈ template.pieces, '?' ∉ piece
  named : ∀ name ∈ template.names, '/' ∉ name

structure Route (H : Type) where
  template : Template
  method : Verb
  handler : H

namespace Route

def key (route : Route H) : RequestMapper := ⟨route.template.text, route.method⟩

def registration (route : Route H) : Registration H := ⟨route.key, route.handler⟩

/-- A request for the route, with these values in its path and these pairs in
its query. -/
structure Asks (route : Route H) (message : Request) (values : List CppString)
    (params : List Parameter) : Prop where
  method : message.method = route.method
  aligned : values.length = route.template.holes.length
  plain : ∀ value ∈ values, '/' ∉ value ∧ '?' ∉ value
  separable : ∀ p ∈ params, p.Separable
  slashFree : ∀ p ∈ params, '/' ∉ p.name ∧ '/' ∉ p.value
  target : message.target = route.template.fill values ∧ params = [] ∨
    message.target = route.template.fill values ++ '?' :: encodeQuery params

/-- The call that is due to such a request: with the pairs of the query in front
of the values of the path. -/
def call {F : Type} (route : Route (StoredHandler F)) (message : Request) (values : List CppString)
    (params : List Parameter) : Invocation F :=
  ⟨route.handler.func, .stringbody message,
    ⟨route.template.fill values, params ++ List.zipWith Parameter.mk route.template.names values⟩⟩

end Route

structure Api (H : Type) where
  routes : List (Route H)
  routable : ∀ route ∈ routes, route.template.Routable
  apart : routes.Pairwise fun first later => first.key.Apart later.key

def Api.router (api : Api H) : HttpRouter H :=
  HttpRouter.registerAll {} (api.routes.map Route.registration)

namespace Template

variable {template : Template} {values : List CppString}

theorem matches_fill (separated : template.Separated)
    (aligned : values.length = template.holes.length) (slashFree : ∀ value ∈ values, '/' ∉ value)
    (m : Verb) : ((⟨template.text, m⟩ : RequestMapper) == ⟨template.fill values, m⟩) = true := by
  have pieces := getUnmatched_text separated
  have scanned := scan_fill separated aligned slashFree
  rw [← pieces] at scanned
  refine RequestMapper.beq_iff.mpr ⟨rfl, _, _, scanned, ?_⟩
  split
  case isTrue single =>
    have bare : template.holes = [] := by
      rw [pieces] at single
      simpa [Template.pieces] using single
    have empty : values = [] := by simpa [bare] using aligned
    simp [text, fill, names, Template.pieces, bare, empty]
  case isFalse => rfl

theorem appendedParams_fill (separated : template.Separated)
    (aligned : values.length = template.holes.length) (slashFree : ∀ value ∈ values, '/' ∉ value) :
    appendedParams template.text (template.fill values) =
      List.zipWith Parameter.mk template.names values := by
  have pieces := getUnmatched_text separated
  have scanned := scan_fill separated aligned slashFree
  rw [← pieces] at scanned
  have cut : getMatched template.text = template.names := template.cut_text.1
  have length := getUnmatched_length template.text
  rw [pieces, cut] at length
  have closed : ¬ EndsInPlaceholder template.text := by
    intro ends
    rw [if_pos ends] at length
    simp [Template.pieces, names] at length
  rw [appendedParams, boundTexts_of_scan scanned, cut]
  split
  case isTrue => rfl
  case isFalse unbound =>
    have bare : template.holes = [] := by
      by_contra decorated
      have holes := List.length_pos_iff.mpr decorated
      refine unbound ⟨?_, closed⟩
      rw [pieces, Template.pieces, List.length_cons, List.length_map]
      omega
    simp [names, bare]

theorem fill_clear {c : Char} (pieces : ∀ piece ∈ template.pieces, c ∉ piece)
    (clear : ∀ value ∈ values, c ∉ value) : c ∉ template.fill values := by
  have stitched : ∀ gaps patterns : List CppString, (∀ gap ∈ gaps, c ∉ gap) →
      (∀ pattern ∈ patterns, c ∉ pattern) → c ∉ stitch gaps patterns := by
    intro gaps
    induction gaps with
    | nil => exact fun _ _ _ => List.not_mem_nil
    | cons gap gaps ih =>
        intro patterns gapsClear patternsClear
        cases patterns with
        | nil => exact List.not_mem_nil
        | cons pattern patterns =>
            rw [List.forall_mem_cons] at gapsClear patternsClear
            have rest := ih patterns gapsClear.2 patternsClear.2
            simp [gapsClear.1, patternsClear.1, rest]
  exact stitched _ _ (List.forall_mem_cons.mpr ⟨List.not_mem_nil, clear⟩) pieces

/-- The literal behind the last placeholder. -/
def last (template : Template) : CppString := template.pieces.getLast (List.cons_ne_nil _ _)

/-- Every path that a template matches ends in its last literal. -/
theorem last_suffix_of_match (separated : template.Separated) {m : Verb} {key : RequestMapper}
    (matched : ((⟨template.text, m⟩ : RequestMapper) == key) = true) : template.last <:+ key.path := by
  have pieces := getUnmatched_text separated
  obtain ⟨-, gaps, rest, scanned, fits⟩ := RequestMapper.beq_iff.mp matched
  rw [pieces] at scanned fits
  split at fits
  case isTrue single =>
    have bare : template.holes = [] := by simpa [Template.pieces] using single
    have whole : template.last = template.text := by
      simp [last, text, names, Template.pieces, bare]
    rw [whole]
    exact fits ▸ List.suffix_rfl
  case isFalse =>
    subst fits
    have length := scan_length scanned
    have sound := scan_sound scanned
    have shape : template.pieces = template.pieces.dropLast ++ [template.last] :=
      (List.dropLast_append_getLast (List.cons_ne_nil _ _)).symm
    obtain ⟨front, gap, rfl⟩ : ∃ front gap, gaps = front ++ [gap] := by
      refine (List.eq_nil_or_concat' gaps).resolve_left fun empty => ?_
      rw [shape, empty] at length
      simp at length
    rw [shape] at length sound
    rw [stitch_append [gap] [template.last] (by simpa using length)] at sound
    exact ⟨stitch front template.pieces.dropLast ++ gap, by rw [sound]; simp⟩

theorem fill_head (rooted : template.first.head? = some '/') :
    (template.fill values).head? = some '/' := by
  simp [fill, Template.pieces, rooted]

end Template

namespace Route

variable {route : Route H}

theorem own (routable : route.template.Routable) : (route.key == route.key) = true := by
  refine @Template.matches_fill _ (route.template.names.map placeholder) routable.separated
    (by simp [Template.names]) ?_ route.method
  intro value member
  obtain ⟨name, known, rfl⟩ := List.mem_map.mp member
  have clear := routable.named name known
  simp [placeholder, clear]

/-- Last literals of which none ends in the other keep two routes apart. -/
theorem apart_of_last {first second : Route H} (routable : first.template.Routable)
    (routable' : second.template.Routable) (unlike : ¬ first.template.last <:+ second.template.last)
    (unlike' : ¬ second.template.last <:+ first.template.last) : first.key.Apart second.key := by
  intro key matched
  by_contra also
  have also : (second.key == key) = true := by simpa using also
  have firstEnds := Template.last_suffix_of_match routable.separated matched
  have secondEnds := Template.last_suffix_of_match routable'.separated also
  rcases List.suffix_or_suffix_of_suffix firstEnds secondEnds with inner | inner
  · exact unlike inner
  · exact unlike' inner

variable {message : Request} {values : List CppString} {params : List Parameter}

theorem Asks.parsed (routable : route.template.Routable) (asks : route.Asks message values params) :
    parseFunction message.target = .ok ⟨route.template.fill values, params⟩ := by
  have rooted := @Template.fill_head _ values routable.rooted
  have noQuery : '?' ∉ route.template.fill values :=
    Template.fill_clear routable.queryFree fun value member => (asks.plain value member).2
  rcases asks.target with ⟨bare, rfl⟩ | queried
  · rw [bare, parseFunction_path rooted noQuery]
  · rw [queried]
    exact parseFunction_encodeQuery rooted noQuery asks.separable
      (slash_not_mem_encodeQuery.mpr asks.slashFree)

end Route

/-- Routes that no request can confuse are stored one behind the other. -/
theorem HttpRouter.registerAll_apart {router : HttpRouter H} {routes : List (Route H)}
    (routable : ∀ route ∈ routes, route.template.Routable)
    (apart : routes.Pairwise fun first later => first.key.Apart later.key)
    (fresh : ∀ t, ∀ entry ∈ (router.table t).entries, ∀ route ∈ routes, entry.1.Apart route.key)
    (t : HandlerTable) :
    ((router.registerAll (routes.map Route.registration)).table t).entries =
      (router.table t).entries ++
        (routes.filter (handlerForVerb ·.method = t)).map fun route => (route.key, route.handler) := by
  induction routes generalizing router with
  | nil => simp
  | cons route routes ih =>
      rw [List.pairwise_cons] at apart
      have missed : ∀ u, ∀ entry ∈ (router.table u).entries, (entry.1 == route.key) = false := by
        intro u entry member
        by_contra matched
        have other := fresh u entry member route (by simp) route.key (by simpa using matched)
        rw [Route.own (routable route (by simp))] at other
        cases other
      have stored : ∀ u, ((router.addHandler route.key route.handler).table u).entries =
          (router.table u).entries ++
            if handlerForVerb route.method = u then [(route.key, route.handler)] else [] := by
        intro u
        rw [table_addHandler]
        split
        case isTrue own =>
          change handlerForVerb route.method = u at own
          rw [FlatMap.assign_of_miss (missed u), if_pos own]
        case isFalse foreign =>
          change ¬ handlerForVerb route.method = u at foreign
          rw [if_neg foreign, List.append_nil]
      rw [List.map_cons, registerAll_cons]
      refine (ih (fun other member => routable other (by simp [member])) apart.2 ?_).trans ?_
      · intro u entry member other later
        change entry ∈ ((router.addHandler route.key route.handler).table u).entries at member
        rw [stored, List.mem_append] at member
        rcases member with known | new
        · exact fresh u entry known other (by simp [later])
        · split at new
          · rw [List.mem_singleton.mp new]
            exact apart.1 other later
          · cases new
      · change ((router.addHandler route.key route.handler).table t).entries ++ _ = _
        rw [stored, List.append_assoc, List.filter_cons]
        by_cases own : handlerForVerb route.method = t <;> simp [own]

namespace Api

/-- The router finds exactly the route that matches. -/
theorem find_eq_some_iff (api : Api H) {key : RequestMapper} {entry : RequestMapper × H} :
    api.router.find key = some entry ↔
      ∃ route ∈ api.routes, (route.key == key) = true ∧ entry = (route.key, route.handler) := by
  have entries := @HttpRouter.registerAll_apart H {} api.routes api.routable api.apart (by simp)
    (handlerForVerb key.method)
  rw [HttpRouter.table_empty, List.nil_append] at entries
  rw [HttpRouter.find, FlatMap.find, router, entries]
  constructor
  · intro found
    obtain ⟨route, kept, rfl⟩ := List.mem_map.mp (List.mem_of_find?_eq_some found)
    have matched := List.find?_some (p := fun v : RequestMapper × H => v.1 == key) found
    exact ⟨route, List.mem_of_mem_filter kept, matched, rfl⟩
  · rintro ⟨route, member, matched, rfl⟩
    have sameMethod : route.method = key.method := RequestMapper.beq_method matched
    obtain ⟨front, back, shape⟩ := List.append_of_mem member
    have apart := api.apart
    rw [shape, List.pairwise_append] at apart
    rw [shape, List.filter_append, List.filter_cons_of_pos (by simp [sameMethod]), List.map_append,
      List.map_cons]
    refine List.find?_eq_some_iff_append.mpr ⟨matched, _, _, rfl, fun entry stored => ?_⟩
    obtain ⟨other, kept, rfl⟩ := List.mem_map.mp stored
    have unlike := apart.2.2 other (List.mem_of_mem_filter kept) route (by simp) key
    by_contra also
    rw [unlike (by simpa using also)] at matched
    cases matched

/-- A request that instantiates a route of the api finds that route. -/
theorem find_of_asks (api : Api H) {route : Route H} (member : route ∈ api.routes)
    {message : Request} {values : List CppString} {params : List Parameter}
    (asks : route.Asks message values params) :
    api.router.find ⟨route.template.fill values, message.method⟩ = some (route.key, route.handler) := by
  refine api.find_eq_some_iff.mpr ⟨route, member, ?_, rfl⟩
  rw [asks.method]
  exact Template.matches_fill (api.routable route member).separated asks.aligned
    (fun value given => (asks.plain value given).1) route.method

/-- The order in which the routes were registered makes no difference. -/
theorem order_irrelevant {api other : Api H} (same : api.routes.Perm other.routes)
    (req : VariantRequest) : api.router.dispatch req = other.router.dispatch req := by
  refine dispatchFrom_congr fun name => Option.ext fun entry => ?_
  rw [find_eq_some_iff, find_eq_some_iff]
  exact exists_congr fun route => and_congr_left' same.mem_iff

end Api

/-- A file behind its name. -/
def coreTemplate : Template where
  first := "/core/".toList
  holes := [("name".toList, "/attachment".toList)]
  literalsClear := by decide
  namesClear := by simp [isLineTerminator]

def listTemplate : Template where
  first := "/entries".toList
  holes := []
  literalsClear := by decide
  namesClear := by simp

theorem coreTemplate_routable : coreTemplate.Routable :=
  ⟨by decide, by decide, by decide, by decide⟩

theorem listTemplate_routable : listTemplate.Routable :=
  ⟨by decide, by decide, by decide, by decide⟩

theorem coreTemplate_unlike :
    ¬ coreTemplate.last <:+ listTemplate.last ∧ ¬ listTemplate.last <:+ coreTemplate.last := by
  decide

def coreApi (core list : H) : Api H where
  routes := [⟨coreTemplate, .get, core⟩, ⟨listTemplate, .get, list⟩]
  routable := by simp [coreTemplate_routable, listTemplate_routable]
  apart := by
    rw [List.pairwise_pair]
    exact Route.apart_of_last coreTemplate_routable listTemplate_routable coreTemplate_unlike.1
      coreTemplate_unlike.2

theorem order_irrelevant_core :
    let swapped : Api Nat :=
      { routes := [⟨listTemplate, .get, 1⟩, ⟨coreTemplate, .get, 0⟩]
        routable := by simp [coreTemplate_routable, listTemplate_routable]
        apart := by
          rw [List.pairwise_pair]
          exact Route.apart_of_last listTemplate_routable coreTemplate_routable
            coreTemplate_unlike.2 coreTemplate_unlike.1 }
    ∀ req, (coreApi 0 1).router.dispatch req = swapped.router.dispatch req :=
  Api.order_irrelevant (.swap _ _ _)

end ChaiBeast.Routing
