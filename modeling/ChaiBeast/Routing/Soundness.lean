import ChaiBeast.Routing.Router

namespace ChaiBeast.Routing

open ChaiBeast.Data

/-! Which of the paths a route accepts are instances of its template.  The
matcher checks that nothing is left behind the last literal, but lets the
first literal start anywhere in the path. -/

/-- `s = p0 v1 p1 .. vk pk` for the literals `p0 .. pk` of the template. -/
def IsInstance (template s : CppString) : Prop :=
  ∃ values : List CppString, values.length = (getMatched template).length ∧
    s = stitch ([] :: values) (literals template)

def firstLiteral (template : CppString) : CppString := (literals template).headD []

theorem literals_eq_cons (template : CppString) :
    ∃ rest, literals template = firstLiteral template :: rest := by
  obtain ⟨first, rest, shape⟩ : ∃ first rest, literals template = first :: rest :=
    List.exists_cons_of_length_pos (by rw [literals_length]; omega)
  exact ⟨rest, by rw [firstLiteral, shape]; rfl⟩

theorem getUnmatched_eq_cons (template : CppString) :
    ∃ pieces, getUnmatched template = firstLiteral template :: pieces := by
  obtain ⟨rest, shape⟩ := literals_eq_cons template
  rcases getUnmatched_eq template with whole | ⟨decorated, dropped⟩
  · exact ⟨rest, whole.trans shape⟩
  · have several := literals_length template
    have names := List.length_pos_iff.mpr decorated
    cases pieces : getUnmatched template with
    | nil =>
        simp only [dropped, pieces, List.nil_append, List.length_singleton] at several
        omega
    | cons first later =>
        rw [dropped, pieces, List.cons_append, List.cons.injEq] at shape
        exact ⟨later, by rw [shape.1]⟩

theorem IsInstance.starts {template s : CppString} (inst : IsInstance template s) :
    firstLiteral template <+: s := by
  obtain ⟨values, _, rfl⟩ := inst
  obtain ⟨rest, shape⟩ := literals_eq_cons template
  rw [shape, stitch_cons, List.nil_append]
  exact List.prefix_append _ _

theorem IsInstance.refl (template : CppString) : IsInstance template template :=
  ⟨(getMatched template).map placeholder, by simp, (stitch_literals template).symm⟩

theorem isInstance_of_scan {template s : CppString} {gaps : List CppString}
    (scanned : scan (getUnmatched template) s = some (gaps, []))
    (anchored : firstLiteral template <+: s) : IsInstance template s := by
  have sound := scan_sound scanned
  have length := scan_length scanned
  have names := literals_length template
  obtain ⟨pieces, cut⟩ := getUnmatched_eq_cons template
  obtain ⟨values, rfl⟩ : ∃ values, gaps = [] :: values := by
    rw [cut] at scanned
    obtain ⟨gap, later, middle, rfl, first, _⟩ := scan_cons_inv scanned
    exact ⟨later, by rw [first.gap_nil anchored]⟩
  rcases getUnmatched_eq template with whole | ⟨_, dropped⟩
  · refine ⟨values, ?_, by rw [← whole, sound]; simp⟩
    rw [whole, names] at length
    simpa using length
  · refine ⟨values ++ [[]], ?_, ?_⟩
    · rw [dropped] at names
      simp only [List.length_append, List.length_cons, List.length_nil] at names length ⊢
      omega
    · have padded := @stitch_append _ ([] :: values) _ [[]] [[]] length
      rw [dropped, ← List.cons_append, padded, sound]
      simp

theorem isInstance_of_single {template s : CppString} {m : Verb}
    (single : (getUnmatched template).length = 1)
    (matched : ((⟨template, m⟩ : RequestMapper) == ⟨s, m⟩) = true) : IsInstance template s := by
  obtain ⟨_, gaps, rest, _, same⟩ := RequestMapper.beq_iff.mp matched
  rw [if_pos single] at same
  have text : template = s := same
  exact text ▸ IsInstance.refl template

theorem match_isInstance_iff {template s : CppString} {m : Verb}
    (matched : ((⟨template, m⟩ : RequestMapper) == ⟨s, m⟩) = true) :
    IsInstance template s ↔ firstLiteral template <+: s := by
  refine ⟨IsInstance.starts, fun anchored => ?_⟩
  by_cases single : (getUnmatched template).length = 1
  · exact isInstance_of_single single matched
  · obtain ⟨gaps, scanned⟩ := (RequestMapper.beq_iff_scan single).mp matched
    exact isInstance_of_scan scanned anchored

/-- Any character in front of the literals keeps the match and spoils the
instance. -/
theorem exists_unanchored_match {template : CppString} (several : (getUnmatched template).length ≠ 1)
    (opened : firstLiteral template ≠ []) (m : Verb) :
    ∃ s, ((⟨template, m⟩ : RequestMapper) == ⟨s, m⟩) = true ∧ ¬ IsInstance template s := by
  obtain ⟨letter, tail, spelled⟩ := List.exists_cons_of_ne_nil opened
  obtain ⟨other, different⟩ : ∃ other : Char, letter ≠ other := by
    by_cases letterA : letter = 'a'
    · exact ⟨'b', by simp [letterA]⟩
    · exact ⟨'a', letterA⟩
  obtain ⟨pieces, cut⟩ := getUnmatched_eq_cons template
  have notFirst : ∀ text : CppString, ¬ firstLiteral template <+: other :: text := by
    intro text starts
    rw [spelled, List.cons_prefix_cons] at starts
    exact different starts.1
  refine ⟨[other] ++ (firstLiteral template ++ pieces.flatten), ?_, ?_⟩
  · rw [RequestMapper.beq_iff_scan several, cut]
    refine ⟨_, scan_flatten ?_⟩
    intro earlier within
    have start : earlier = 0 := by simpa using within
    subst start
    exact notFirst _
  · intro inst
    exact notFirst _ inst.starts

theorem extractParamsFromPath_name {func bound : HttpFunction} {handlerfuncname pathfuncname : CppString}
    (extracted : extractParamsFromPath func handlerfuncname pathfuncname = .ok bound) :
    bound.name = func.name := by
  unfold extractParamsFromPath at extracted
  dsimp only at extracted
  split at extracted
  · cases ends : accumulateEnds (getUnmatched handlerfuncname) pathfuncname with
    | error fault => simp [ends] at extracted
    | ok endindices =>
        simp only [ends, bind, Except.bind] at extracted
        split at extracted
        · contradiction
        · split at extracted <;> (cases extracted; rfl)
  · cases extracted
    rfl

/-- Of the paths a route accepts, exactly those that begin with the literal
before its first placeholder are instances of it, and so for every handler the
router invokes.  A route accepts instances only if that literal is empty or
there is one piece to compare. -/
theorem match_sound_iff_anchored (template : CppString) (m : Verb) {H : Type}
    (router : HttpRouter H) :
    (∀ s, ((⟨template, m⟩ : RequestMapper) == ⟨s, m⟩) = true →
      (IsInstance template s ↔ firstLiteral template <+: s)) ∧
    ((∀ s, ((⟨template, m⟩ : RequestMapper) == ⟨s, m⟩) = true → IsInstance template s) ↔
      firstLiteral template = [] ∨ (getUnmatched template).length = 1) ∧
    ∀ req call, router.dispatch req = .ok call → call.key = ⟨template, m⟩ →
      (IsInstance template call.httpfunc.name ↔ firstLiteral template <+: call.httpfunc.name) := by
  refine ⟨fun s matched => match_isInstance_iff matched, ?_, ?_⟩
  · constructor
    · intro sound
      by_contra anchorless
      rw [not_or] at anchorless
      obtain ⟨s, matched, outside⟩ := exists_unanchored_match anchorless.2 anchorless.1 m
      exact outside (sound s matched)
    · intro anchored s matched
      rcases anchored with opened | single
      · exact (match_isInstance_iff matched).mpr (by rw [opened]; exact List.nil_prefix)
      · exact isInstance_of_single single matched
  · intro req call dispatched stored
    obtain ⟨httpfunc, _, found, extracted⟩ := dispatchFrom_ok dispatched
    have matched := HttpRouter.find_matches found
    rw [extractParamsFromPath_name extracted]
    have sameMethod : call.key.method = req.method := RequestMapper.beq_method matched
    have key : call.key = ⟨template, req.method⟩ := by rw [← sameMethod, stored]
    dsimp only at matched
    rw [key] at matched
    exact match_isInstance_iff matched

theorem match_sound_iff_anchored_dump :
    let key : RequestMapper := ⟨"/dump/{name}/data".toList, .get⟩
    let router : HttpRouter Nat := ({} : HttpRouter Nat).registerAll [⟨key, 0⟩]
    let call : Dispatch Nat :=
      ⟨key, 0, ⟨"/dump/7/data".toList, [⟨"name".toList, "7".toList⟩]⟩⟩
    (IsInstance key.path "/dump/7/data".toList ↔ firstLiteral key.path <+: "/dump/7/data".toList) ∧
      router.dispatch (.stringbody ⟨.get, "/dump/7/data".toList, 11, [], by decide⟩) = .ok call ∧
      (IsInstance key.path call.httpfunc.name ↔ firstLiteral key.path <+: call.httpfunc.name) := by
  intro key router call
  have dispatched : router.dispatch (.stringbody ⟨.get, "/dump/7/data".toList, 11, [], by decide⟩) = .ok call := by
    decide
  exact ⟨(match_sound_iff_anchored key.path .get router).1 _ (by decide), dispatched,
    (match_sound_iff_anchored key.path .get router).2.2 _ call dispatched rfl⟩

theorem unanchored_path_matches :
    ((⟨"/a/{x}/c".toList, .get⟩ : RequestMapper) == ⟨"/evil/a/1/c".toList, .get⟩) = true ∧
      ¬ IsInstance "/a/{x}/c".toList "/evil/a/1/c".toList :=
  ⟨by decide, fun inst => absurd inst.starts (by decide)⟩

end ChaiBeast.Routing
