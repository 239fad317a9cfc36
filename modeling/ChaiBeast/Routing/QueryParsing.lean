import ChaiBeast.Routing.Query

namespace ChaiBeast.Routing

/-! What the target parser reads out of a query, whatever it contains. -/

/-- The pair that a component with a `=` stands for. -/
def queryPair (p : CppString) : Parameter :=
  ⟨(split p '=').headD [], (split p '=').getD 1 []⟩

theorem parsePair_of_mem {p : CppString} (assigned : '=' ∈ p) : parsePair p = .ok (queryPair p) := by
  obtain ⟨left, right, rfl, clear⟩ := exists_first_split assigned
  have pieces : split (left ++ '=' :: right) '=' = left :: right.splitOn '=' := by
    simp [split, List.splitOn_append_cons_self_of_not_mem clear]
  obtain ⟨value, more, shape⟩ := List.exists_cons_of_ne_nil (List.splitOn_ne_nil '=' right)
  simp [parsePair, queryPair, pieces, shape, subscript]

theorem parsePair_of_not_mem {p : CppString} (unassigned : '=' ∉ p) :
    parsePair p = .error .badSubscript := by
  cases p with
  | nil => rfl
  | cons c p =>
      have pieces := split_of_clear (List.cons_ne_nil c p) unassigned
      simp [parsePair, pieces, subscript]

theorem parsePairs_of_mem {components : List CppString} (assigned : ∀ p ∈ components, '=' ∈ p) :
    components.mapM parsePair = .ok (components.map queryPair) := by
  induction components with
  | nil => rfl
  | cons p components ih =>
      have head := parsePair_of_mem (assigned p (by simp))
      have tail := ih fun other member => assigned other (by simp [member])
      simp only [List.mapM_cons, head, tail, ok_bind, pure_eq_ok, List.map_cons]

theorem parsePairs_of_not_mem {components : List CppString} (unassigned : ∃ p ∈ components, '=' ∉ p) :
    components.mapM parsePair = .error .badSubscript := by
  induction components with
  | nil => simp at unassigned
  | cons p components ih =>
      by_cases assigned : '=' ∈ p
      · have head := parsePair_of_mem assigned
        have tail := ih (by simpa [assigned] using unassigned)
        simp only [List.mapM_cons, head, tail, ok_bind, error_bind]
      · simp only [List.mapM_cons, parsePair_of_not_mem assigned, error_bind]

/-- The parser accesses only elements that exist if and only if every component
of the query has a `=`.  The query is what follows the first `?` behind the last
`/` of the target. -/
theorem parseFunction_in_bounds_iff (target : CppString) :
    parseFunction target ≠ .error .badSubscript ↔
      ∀ front last query, target = front ++ '/' :: (last ++ '?' :: query) →
        '/' ∉ last ++ '?' :: query → '?' ∉ last → ∀ p ∈ split query '&', '=' ∈ p := by
  constructor
  · intro inBounds front last query shape slashClear queryClear p member
    by_contra unassigned
    have fails := parsePairs_of_not_mem ⟨p, member, unassigned⟩
    rw [shape, parseFunction_query slashClear queryClear, fails] at inBounds
    exact inBounds rfl
  · intro assigned
    by_cases slash : '/' ∈ target
    · obtain ⟨front, tail, rfl, slashClear⟩ := exists_last_split slash
      by_cases queried : '?' ∈ tail
      · obtain ⟨last, query, rfl, queryClear⟩ := exists_first_split queried
        have pairs := parsePairs_of_mem (assigned front last query rfl slashClear queryClear)
        rw [parseFunction_query slashClear queryClear, pairs]
        simp [Except.map]
      · rw [parseFunction_plain slashClear queried]
        simp
    · rw [parseFunction_no_slash slash]
      simp

theorem parseFunction_fault {target : CppString} {fault : Fault}
    (failed : parseFunction target = .error fault) : fault = .badSubscript := by
  by_cases slash : '/' ∈ target
  · obtain ⟨front, tail, rfl, slashClear⟩ := exists_last_split slash
    by_cases queried : '?' ∈ tail
    · obtain ⟨last, query, rfl, queryClear⟩ := exists_first_split queried
      rw [parseFunction_query slashClear queryClear] at failed
      by_cases assigned : ∀ p ∈ split query '&', '=' ∈ p
      · simp [parsePairs_of_mem assigned, Except.map] at failed
      · have unassigned : ∃ p ∈ split query '&', '=' ∉ p := by simpa using assigned
        simpa [parsePairs_of_not_mem unassigned, Except.map] using failed.symm
    · simp [parseFunction_plain slashClear queried] at failed
  · simp [parseFunction_no_slash slash] at failed

theorem component_without_value :
    parseFunction "/?a".toList = .error .badSubscript ∧
      parseFunction "/list?page=1&&size=2".toList = .error .badSubscript := by
  decide

namespace HttpFunction

theorem get_of_first {func : HttpFunction} {front back : List Parameter} {key value : CppString}
    (shape : func.params = front ++ ⟨key, value⟩ :: back) (fresh : ∀ p ∈ front, p.name ≠ key) :
    func.get key = value := by
  have found : func.params.find? (fun p => p.name == key) = some ⟨key, value⟩ :=
    List.find?_eq_some_iff_append.mpr ⟨by simp, front, back, shape, by simpa using fresh⟩
  simp only [get, found]

theorem get_of_absent {func : HttpFunction} {key : CppString}
    (absent : ∀ p ∈ func.params, p.name ≠ key) : func.get key = [] := by
  have missing : func.params.find? (fun p => p.name == key) = none :=
    List.find?_eq_none.mpr (by simpa using absent)
  simp only [get, missing]

end HttpFunction

/-- Parsing undoes encoding, and a key is read as the value of its first pair. -/
theorem parseFunction_decodes {path : CppString} {params : List Parameter}
    (rooted : path.head? = some '/') (noQuery : '?' ∉ path)
    (separable : ∀ p ∈ params, p.Separable)
    (slashFree : ∀ p ∈ params, '/' ∉ p.name ∧ '/' ∉ p.value) :
    ∃ func, parseFunction (path ++ '?' :: encodeQuery params) = .ok func ∧
      func.name = path ∧ func.params = params ∧
      ∀ key,
        (∀ front value back, params = front ++ ⟨key, value⟩ :: back →
          (∀ p ∈ front, p.name ≠ key) → func.get key = value) ∧
        ((∀ p ∈ params, p.name ≠ key) → func.get key = []) := by
  have clear := slash_not_mem_encodeQuery.mpr slashFree
  refine ⟨⟨path, params⟩, parseFunction_encodeQuery rooted noQuery separable clear, rfl, rfl, ?_⟩
  intro key
  refine ⟨?_, ?_⟩
  · exact fun front value back shape fresh => HttpFunction.get_of_first shape fresh
  · exact fun absent => HttpFunction.get_of_absent absent

theorem parseFunction_decodes_repeated :
    let params : List Parameter :=
      [⟨"a".toList, "1".toList⟩, ⟨"".toList, "?".toList⟩, ⟨"a".toList, "".toList⟩]
    ∃ func, parseFunction ("/list".toList ++ '?' :: encodeQuery params) = .ok func ∧
      func.params = params ∧ func.get "a".toList = "1".toList ∧ func.get "b".toList = [] := by
  intro params
  obtain ⟨func, parsed, -, same, reads⟩ := @parseFunction_decodes "/list".toList params
    (by decide) (by decide) (by decide) (by decide)
  exact ⟨func, parsed, same, (reads "a".toList).1 [] _ _ rfl (by simp),
    (reads "b".toList).2 (by decide)⟩

end ChaiBeast.Routing
