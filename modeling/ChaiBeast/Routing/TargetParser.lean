import ChaiBeast.Routing.RegexRange

namespace ChaiBeast.Routing

open ChaiBeast.Data

/-! include/http_target_parser.hpp: the request target is cut into a name and
its query parameters, and the placeholders of a matched route are bound to the
text of the name.  The extractor keeps its offsets in `int`s: what `find` returns
and every end of a piece is converted, sums of two are checked. -/

structure Parameter where
  name : CppString
  value : CppString
deriving Repr, DecidableEq

structure HttpFunction where
  name : CppString
  params : List Parameter
deriving Repr, DecidableEq

def HttpFunction.get (func : HttpFunction) (name : CppString) : CppString :=
  match func.params.find? (fun p => p.name == name) with
  | some iter => iter.value
  | none => []

/-- One component of the query.  Neither access is checked. -/
def parsePair (p : CppString) : Except Fault Parameter := do
  let pairs := split p '='
  let name ← subscript pairs 0
  let value ← subscript pairs 1
  return ⟨name, value⟩

def parseFunction (target : CppString) : Except Fault HttpFunction :=
  match findLastOf target '/' with
  | none => .ok ⟨[], []⟩
  | some index => do
      let func ← substrCount target 0 index
      let paramstring ← substrCount target index (target.length - index)
      match findFirstOf paramstring '?' with
      | none => return ⟨target, []⟩
      | some funcindex =>
          let query ← substrCount paramstring (funcindex + 1) (paramstring.length - funcindex)
          let parampairs ← (split query '&').mapM parsePair
          let last ← substrCount paramstring 0 funcindex
          return ⟨func ++ last, parampairs⟩

/-- `find` stored in an `int`, where `npos` is -1. -/
def findInt (pattern text : CppString) : Int :=
  match find pattern text with
  | some index => toInt index
  | none => -1

/-- The lambda of the `accumulate`: what is left of `functionname`, and begin and
end offset of each piece so far, relative to the whole path. -/
def nextEnd (state : CppString × List (Int × Int)) (v : CppString) :
    Except Fault (CppString × List (Int × Int)) := do
  let (functionname, sofar) := state
  let index := findInt v functionname
  let functionname ← substr functionname (index + v.length)
  match sofar.getLast? with
  | none => return (functionname, sofar ++ [(index, toInt (index + v.length))])
  | some back =>
      let index ← checkInt (back.2 + index)
      return (functionname, sofar ++ [(index, toInt (index + v.length))])

def accumulateEnds (names : List CppString) (pathfuncname : CppString) :
    Except Fault (List (Int × Int)) :=
  (names.foldlM nextEnd (pathfuncname, [])).map Prod.snd

/-- `std::adjacent_difference` keeps the first element and combines every other
one with its predecessor. -/
def adjacentDifference (op : α → α → α) : List α → List α
  | [] => []
  | first :: rest => first :: List.zipWith op rest (first :: rest)

def extractParamsFromPath (func : HttpFunction) (handlerfuncname pathfuncname : CppString) :
    Except Fault HttpFunction :=
  let sorrounds := getUnmatched handlerfuncname
  if sorrounds.length > 1 then do
    let endindices ← accumulateEnds (getUnmatched handlerfuncname) pathfuncname
    let range := adjacentDifference (fun v1 v2 => (v2.2, v1.1)) endindices
    let params ← (range.drop 1).mapM fun v => do
      substrCount pathfuncname v.1 (← checkInt (v.2 - v.1))
    let variablenames := getMatched handlerfuncname
    if params.length = variablenames.length then
      return { func with params := func.params ++ List.zipWith Parameter.mk variablenames params }
    else return func
  else .ok func

theorem parsePair_join {key value : CppString} (keyClear : '=' ∉ key) (valueClear : '=' ∉ value) :
    parsePair (key ++ '=' :: value) = .ok ⟨key, value⟩ := by
  simp [parsePair, split_pair keyClear valueClear, subscript]

theorem parseFunction_no_slash {target : CppString} (clear : '/' ∉ target) :
    parseFunction target = .ok ⟨[], []⟩ := by
  simp [parseFunction, findLastOf_none.mpr clear]

private theorem lastComponent_substr (front last : CppString) :
    substrCount (front ++ '/' :: last) 0 front.length = .ok front ∧
      substrCount (front ++ '/' :: last) front.length
        ((front ++ '/' :: last).length - front.length) = .ok ('/' :: last) := by
  refine ⟨?_, ?_⟩
  · simpa using substrCount_append [] front ('/' :: last) front.length rfl
  · simpa using substrCount_append front ('/' :: last) [] ((front ++ '/' :: last).length - front.length)
      (by simp only [List.length_append]; omega)

theorem parseFunction_plain {front last : CppString} (slashClear : '/' ∉ last)
    (queryClear : '?' ∉ last) :
    parseFunction (front ++ '/' :: last) = .ok ⟨front ++ '/' :: last, []⟩ := by
  obtain ⟨func, paramstring⟩ := lastComponent_substr front last
  have noQuery : findFirstOf ('/' :: last) '?' = none :=
    findFirstOf_none.mpr (by simpa using queryClear)
  simp only [parseFunction, findLastOf_append front slashClear, func, paramstring, noQuery,
    ok_bind, pure_eq_ok]

theorem parseFunction_no_query {target : CppString} (slash : '/' ∈ target)
    (queryClear : '?' ∉ target) : parseFunction target = .ok ⟨target, []⟩ := by
  obtain ⟨front, last, rfl, lastClear⟩ := exists_last_split slash
  exact parseFunction_plain lastClear fun member => queryClear (by simp [member])

/-- A query is found only behind the last slash of the whole target. -/
theorem parseFunction_query {front last query : CppString} (slashClear : '/' ∉ last ++ '?' :: query)
    (queryClear : '?' ∉ last) :
    parseFunction (front ++ '/' :: (last ++ '?' :: query)) =
      ((split query '&').mapM parsePair).map fun params => ⟨front ++ '/' :: last, params⟩ := by
  obtain ⟨func, paramstring⟩ := lastComponent_substr front (last ++ '?' :: query)
  have position : findFirstOf ('/' :: (last ++ '?' :: query)) '?' = some (last.length + 1) := by
    have unseen : '?' ∉ '/' :: last := by simpa using queryClear
    simpa using findFirstOf_append query unseen
  have tail : substrCount ('/' :: (last ++ '?' :: query)) (↑(last.length + 1) + 1)
      (('/' :: (last ++ '?' :: query)).length - ↑(last.length + 1)) = .ok query := by
    have cut : substr ('/' :: (last ++ '?' :: query)) (↑(last.length + 1) + 1) = .ok query := by
      simpa using substr_append ('/' :: (last ++ ['?'])) query
    have counted : (0 : Int) ≤ ('/' :: (last ++ '?' :: query)).length - ↑(last.length + 1) := by
      simp only [List.length_cons, List.length_append]
      omega
    rw [substrCount, cut, Except.map, if_pos counted, List.take_of_length_le]
    simp only [List.length_cons, List.length_append]
    omega
  have head : substrCount ('/' :: (last ++ '?' :: query)) 0 ↑(last.length + 1) = .ok ('/' :: last) := by
    simpa using substrCount_append [] ('/' :: last) ('?' :: query) (last.length + 1) (by simp)
  cases pairs : (split query '&').mapM parsePair with
  | error fault =>
      simp only [parseFunction, findLastOf_append front slashClear, func, paramstring, position,
        tail, pairs, ok_bind, error_bind, Except.map]
  | ok params =>
      simp only [parseFunction, findLastOf_append front slashClear, func, paramstring, position,
        tail, head, pairs, ok_bind, Except.map, pure_eq_ok]

theorem parseFunction_path_query {path query : CppString} (slash : '/' ∈ path)
    (pathClear : '?' ∉ path) (queryClear : '/' ∉ query) :
    parseFunction (path ++ '?' :: query) =
      ((split query '&').mapM parsePair).map fun params => ⟨path, params⟩ := by
  obtain ⟨front, last, rfl, lastClear⟩ := exists_last_split slash
  have tailClear : '/' ∉ last ++ '?' :: query := by
    simp [lastClear, queryClear]
  have lastQuery : '?' ∉ last := fun member => pathClear (by simp [member])
  rw [List.append_assoc, List.cons_append, parseFunction_query tailClear lastQuery]

theorem parseFunction_cases {target : CppString} {func : HttpFunction}
    (parsed : parseFunction target = .ok func) :
    ('/' ∉ target ∧ func = ⟨[], []⟩) ∨
    (∃ front last, target = front ++ '/' :: last ∧ '/' ∉ last ∧ '?' ∉ last ∧ func = ⟨target, []⟩) ∨
    (∃ front last query, target = front ++ '/' :: (last ++ '?' :: query) ∧
      '/' ∉ last ++ '?' :: query ∧ '?' ∉ last ∧ func.name = front ++ '/' :: last ∧
      (split query '&').mapM parsePair = .ok func.params) := by
  by_cases slash : '/' ∈ target
  · right
    obtain ⟨front, tail, rfl, slashClear⟩ := exists_last_split slash
    by_cases queried : '?' ∈ tail
    · right
      obtain ⟨last, query, rfl, queryClear⟩ := exists_first_split queried
      rw [parseFunction_query slashClear queryClear] at parsed
      cases pairs : (split query '&').mapM parsePair with
      | error fault => simp [pairs, Except.map] at parsed
      | ok params =>
          simp only [pairs, Except.map, Except.ok.injEq] at parsed
          subst func
          exact ⟨front, last, query, rfl, slashClear, queryClear, rfl, pairs⟩
    · left
      rw [parseFunction_plain slashClear queried] at parsed
      cases parsed
      exact ⟨front, tail, rfl, slashClear, queried, rfl⟩
  · left
    rw [parseFunction_no_slash slash] at parsed
    cases parsed
    exact ⟨slash, rfl⟩

theorem parseFunction_name_length {target : CppString} {func : HttpFunction}
    (parsed : parseFunction target = .ok func) : func.name.length ≤ target.length := by
  rcases parseFunction_cases parsed with ⟨_, rfl⟩ | ⟨_, _, _, _, _, rfl⟩ |
    ⟨front, last, query, rfl, _, _, name, _⟩
  · exact Nat.zero_le _
  · exact Nat.le_refl _
  · rw [name]
    simp only [List.length_append, List.length_cons]
    omega

end ChaiBeast.Routing
