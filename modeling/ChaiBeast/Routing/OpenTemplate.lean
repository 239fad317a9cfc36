import ChaiBeast.Routing.Agreement

namespace ChaiBeast.Routing

open ChaiBeast.Data

/-! Routes that end in a placeholder.  The piece behind the last placeholder is
empty and dropped, so that there are as many pieces as placeholders and one gap
too few between them. -/

/-- A route `p0{n1}p1..p(k-1){nk}` as its author wrote it, by the pairs of a
literal and the name behind it. -/
structure OpenTemplate where
  holes : List (CppString × CppString)
  decorated : holes ≠ []
  clear : ∀ hole ∈ holes, ('{' ∉ hole.1 ∧ '}' ∉ hole.1) ∧ '{' ∉ hole.2 ∧ '}' ∉ hole.2
  opened : holes.head?.map Prod.fst ≠ some []
  separated : ∀ hole ∈ holes.tail, hole.1.head? = some '/'

namespace OpenTemplate

def names (template : OpenTemplate) : List CppString := template.holes.map Prod.snd

def text (template : OpenTemplate) : CppString :=
  (template.holes.map fun hole => hole.1 ++ placeholder hole.2).flatten

def fill (template : OpenTemplate) (values : List CppString) : CppString :=
  (List.zipWith (fun hole value => hole.1 ++ value) template.holes values).flatten

theorem count_text (template : OpenTemplate) : template.text.count '}' = template.holes.length := by
  have clear := template.clear
  unfold text
  generalize template.holes = holes at clear
  induction holes with
  | nil => rfl
  | cons hole holes ih =>
      have here := clear hole (by simp)
      have rest := ih fun other member => clear other (by simp [member])
      have literal : hole.1.count '}' = 0 := List.count_eq_zero.mpr here.1.2
      have name : hole.2.count '}' = 0 := List.count_eq_zero.mpr here.2.2
      rw [List.map_cons, List.flatten_cons, List.count_append, rest]
      simp [placeholder, literal, name, Nat.add_comm]

theorem text_ends (template : OpenTemplate) : template.text.getLast? = some '}' := by
  obtain ⟨holes, last, shape⟩ :=
    (List.eq_nil_or_concat' template.holes).resolve_left template.decorated
  have whole : template.text =
      ((holes.map fun hole => hole.1 ++ placeholder hole.2).flatten ++ last.1 ++ '{' :: last.2) ++ ['}'] := by
    simp [text, shape, placeholder]
  rw [whole, List.getLast?_concat]

end OpenTemplate

/-- Every placeholder takes a closing brace of its own. -/
theorem getMatched_count (str : CppString) :
    (getMatched str).length + (regexMatches str).2.count '}' ≤ str.count '}' ∧
      (regexMatches str).2 <:+ str := by
  induction str using regexSearch_induction with
  | done str searched => simp [getMatched, regexMatches_none searched]
  | next str found suffix searched ih =>
      obtain ⟨counted, tail⟩ := ih
      have shape := regexSearch_sound searched
      refine ⟨?_, ?_⟩
      · rw [getMatched_some searched, regexMatches_some searched, shape]
        simp only [List.length_cons, List.count_append, placeholder, List.count_cons_self,
          List.count_cons]
        omega
      · rw [regexMatches_some searched, shape]
        exact (tail.trans (List.suffix_append _ _)).trans (List.suffix_append _ _)

theorem endsInPlaceholder_of_count {str : CppString} (ends : str.getLast? = some '}')
    (counted : (getMatched str).length = str.count '}') : EndsInPlaceholder str := by
  obtain ⟨taken, tail⟩ := getMatched_count str
  have clear : '}' ∉ (regexMatches str).2 := List.count_eq_zero.mp (by omega)
  have present : '}' ∈ str := List.mem_of_getLast? ends
  refine ⟨?_, ?_⟩
  · have positive := List.count_pos_iff.mpr present
    exact List.length_pos_iff.mp (by omega)
  · obtain ⟨front, shape⟩ := tail
    have empty : (regexMatches str).2 = [] := by
      by_contra nonempty
      rw [← shape, List.getLast?_append_of_ne_nil _ nonempty] at ends
      exact clear (List.mem_of_getLast? ends)
    simp [literals, empty]

namespace OpenTemplate

/-- No path that fills the route is both matched by it and given the values as
its parameters. -/
theorem never_works (template : OpenTemplate) {values : List CppString}
    (aligned : values.length = template.holes.length) (m : Verb) (func : HttpFunction) :
    ¬ (((⟨template.text, m⟩ : RequestMapper) == ⟨template.fill values, m⟩) = true ∧
      extractParamsFromPath func template.text (template.fill values) =
        .ok { func with
          params := func.params ++ List.zipWith Parameter.mk template.names values }) := by
  rintro ⟨-, extracted⟩
  have holes := List.length_pos_iff.mpr template.decorated
  have filled : (List.zipWith Parameter.mk template.names values).length = template.holes.length := by
    rw [List.length_zipWith, names, List.length_map, aligned, Nat.min_self]
  rcases extractParamsFromPath_cases extracted with unchanged | ⟨params, pieces, named, bound⟩
  · have appended := congrArg (fun bound => bound.params.length) unchanged
    simp only [List.length_append, filled] at appended
    omega
  · rw [HttpFunction.mk.injEq, List.append_cancel_left_eq] at bound
    have appended := congrArg List.length bound.2
    rw [filled, List.length_zipWith, named, Nat.min_self, ← template.count_text] at appended
    have ends := endsInPlaceholder_of_count template.text_ends appended.symm
    rw [getUnmatched_length, if_pos ends] at pieces
    omega

theorem never_works_user :
    let template : OpenTemplate :=
      ⟨[("/user/".toList, "id".toList)], by simp, by decide, by decide, by decide⟩
    ¬ (((⟨template.text, .get⟩ : RequestMapper) == ⟨template.fill ["7".toList], .get⟩) = true ∧
      extractParamsFromPath ⟨[], []⟩ template.text (template.fill ["7".toList]) =
        .ok ⟨[], [⟨"id".toList, "7".toList⟩]⟩) := by
  intro template
  exact never_works template rfl .get ⟨[], []⟩

theorem trailing_placeholder_unmatched :
    ((⟨"/user/{id}".toList, .get⟩ : RequestMapper) == ⟨"/user/7".toList, .get⟩) = false ∧
      extractParamsFromPath ⟨"/user/7".toList, []⟩ "/user/{id}".toList "/user/7".toList =
        .ok ⟨"/user/7".toList, []⟩ := by
  decide

end OpenTemplate

end ChaiBeast.Routing
