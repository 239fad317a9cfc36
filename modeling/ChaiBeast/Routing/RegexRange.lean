import ChaiBeast.Strings

namespace ChaiBeast.Routing

open ChaiBeast.Data

/-! `regex_range` of include/regex_range.hpp at the one pattern the sources use,
`\{(.*?)\}`.  The token iterators are modeled as the C++ standard describes
them: successive leftmost searches, each starting where the last match ended. -/

/-- What `.` refuses in an ECMAScript pattern over single-byte characters. -/
def isLineTerminator (c : Char) : Bool := c == '\n' || c == '\r'

structure Match where
  before : CppString
  name : CppString
deriving Repr, DecidableEq

/-- The lazy group `(.*?)\}` after an opening brace, as the captured text and
what follows the closing brace. -/
def captureName : CppString → Option (CppString × CppString)
  | [] => none
  | c :: rest =>
      if c == '}' then some ([], rest)
      else if isLineTerminator c then none
      else (captureName rest).map fun result => (c :: result.1, result.2)

def regexSearch : CppString → Option (Match × CppString)
  | [] => none
  | c :: rest =>
      match if c == '{' then captureName rest else none with
      | some (name, suffix) => some (⟨[], name⟩, suffix)
      | none => (regexSearch rest).map fun result =>
          (⟨c :: result.1.before, result.1.name⟩, result.2)

/-- A match takes at least its two braces, so the length of the text is fuel
enough to list every match. -/
def regexMatchesFrom : Nat → CppString → List Match × CppString
  | 0, str => ([], str)
  | fuel + 1, str =>
      match regexSearch str with
      | none => ([], str)
      | some (found, suffix) =>
          let later := regexMatchesFrom fuel suffix
          (found :: later.1, later.2)

def regexMatches (str : CppString) : List Match × CppString :=
  regexMatchesFrom str.length str

def getMatched (str : CppString) : List CppString :=
  (regexMatches str).1.map Match.name

/-- Token iterator over submatch -1: every prefix, then the last suffix, which
is dropped when it is empty unless there was no match at all. -/
def getUnmatched (str : CppString) : List CppString :=
  let (found, suffix) := regexMatches str
  found.map Match.before ++ if suffix.isEmpty && !found.isEmpty then [] else [suffix]

/-- The literals `p0 .. pk` around the placeholders, the last one kept even
when it is empty. -/
def literals (str : CppString) : List CppString :=
  (regexMatches str).1.map Match.before ++ [(regexMatches str).2]

def placeholder (name : CppString) : CppString := '{' :: (name ++ ['}'])

/-- `val.str()`: the text of the whole match. -/
def Match.str (val : Match) : CppString := placeholder val.name

/-- One step of the `accumulate`: the length of the last match, and the indices
so far.  The two are added as `int`s, and the sum with the length of the prefix is
converted to one. -/
def nextIndex (sofar : Int × List Int) (val : Match) : Except Fault (Int × List Int) :=
  match sofar.2.getLast? with
  | some back => do
      let index ← checkInt (back + sofar.1)
      return (toInt val.str.length, sofar.2 ++ [toInt (index + val.before.length)])
  | none => return (toInt val.str.length, sofar.2 ++ [toInt val.before.length])

def matchIndices (str : CppString) : Except Fault (List Int) :=
  ((regexMatches str).1.foldlM nextIndex (0, [])).map Prod.snd

theorem captureName_sound {str name suffix : CppString}
    (captured : captureName str = some (name, suffix)) : str = name ++ '}' :: suffix := by
  induction str generalizing name with
  | nil => simp [captureName] at captured
  | cons c rest ih =>
      simp only [captureName] at captured
      split at captured
      · rename_i closing
        cases captured
        simpa using closing
      · split at captured
        · contradiction
        · obtain ⟨⟨tail, last⟩, found, same⟩ := Option.map_eq_some_iff.mp captured
          cases same
          simp [ih found]

theorem captureName_clear {str name suffix : CppString}
    (captured : captureName str = some (name, suffix)) :
    '}' ∉ name ∧ ∀ c ∈ name, isLineTerminator c = false := by
  induction str generalizing name with
  | nil => simp [captureName] at captured
  | cons c rest ih =>
      simp only [captureName] at captured
      split at captured
      · cases captured
        simp
      · rename_i notClosing
        split at captured
        · contradiction
        · rename_i oneLine
          obtain ⟨⟨tail, last⟩, found, same⟩ := Option.map_eq_some_iff.mp captured
          cases same
          obtain ⟨closed, clear⟩ := ih found
          have letter : c ≠ '}' := by simpa using notClosing
          refine ⟨by simp [letter.symm, closed], ?_⟩
          intro other member
          rcases List.mem_cons.mp member with rfl | later
          · simpa using oneLine
          · exact clear other later

theorem captureName_append {name : CppString} (suffix : CppString) (closed : '}' ∉ name)
    (oneLine : ∀ c ∈ name, isLineTerminator c = false) :
    captureName (name ++ '}' :: suffix) = some (name, suffix) := by
  induction name with
  | nil => simp [captureName]
  | cons c name ih =>
      have notClosing : c ≠ '}' := fun same => closed (by simp [same])
      have tail := ih (fun member => closed (by simp [member]))
        (fun other member => oneLine other (by simp [member]))
      simp [captureName, notClosing, oneLine c (by simp), tail]

theorem regexSearch_sound {str suffix : CppString} {found : Match}
    (searched : regexSearch str = some (found, suffix)) :
    str = found.before ++ (placeholder found.name ++ suffix) := by
  induction str generalizing found with
  | nil => simp [regexSearch] at searched
  | cons c rest ih =>
      simp only [regexSearch] at searched
      split at searched
      · rename_i name after captured
        cases searched
        split at captured
        · rename_i opening
          have letter : c = '{' := by simpa using opening
          simp [placeholder, letter, captureName_sound captured]
        · contradiction
      · obtain ⟨⟨inner, last⟩, tail, same⟩ := Option.map_eq_some_iff.mp searched
        cases same
        simpa using ih tail

theorem regexSearch_length {str suffix : CppString} {found : Match}
    (searched : regexSearch str = some (found, suffix)) : suffix.length < str.length := by
  have length := congrArg List.length (regexSearch_sound searched)
  simp only [placeholder, List.length_append, List.length_cons] at length
  omega

/-- Induction along the matches of a text. -/
theorem regexSearch_induction {P : CppString → Prop}
    (done : ∀ str, regexSearch str = none → P str)
    (next : ∀ str found suffix, regexSearch str = some (found, suffix) → P suffix → P str)
    (str : CppString) : P str := by
  induction size : str.length using Nat.strong_induction_on generalizing str with
  | _ size ih =>
      cases searched : regexSearch str with
      | none => exact done str searched
      | some result =>
          have shorter := regexSearch_length searched
          exact next str result.1 result.2 searched (ih result.2.length (by omega) result.2 rfl)

theorem regexSearch_none {str : CppString} (clear : '{' ∉ str) : regexSearch str = none := by
  induction str with
  | nil => rfl
  | cons c rest ih =>
      have notOpening : c ≠ '{' := fun same => clear (by simp [same])
      simp [regexSearch, notOpening, ih (fun member => clear (by simp [member]))]

theorem regexSearch_placeholder {before name : CppString} (suffix : CppString)
    (opened : '{' ∉ before) (closed : '}' ∉ name)
    (oneLine : ∀ c ∈ name, isLineTerminator c = false) :
    regexSearch (before ++ (placeholder name ++ suffix)) = some (⟨before, name⟩, suffix) := by
  induction before with
  | nil => simp [regexSearch, placeholder, captureName_append suffix closed oneLine]
  | cons c before ih =>
      have notOpening : c ≠ '{' := fun same => opened (by simp [same])
      have tail := ih (fun member => opened (by simp [member]))
      simp [regexSearch, notOpening, tail]

private theorem regexMatchesFrom_fuel {fuel more : Nat} {str : CppString}
    (enough : str.length ≤ fuel) (enoughMore : str.length ≤ more) :
    regexMatchesFrom fuel str = regexMatchesFrom more str := by
  induction fuel generalizing more str with
  | zero =>
      have empty : str = [] := List.length_eq_zero_iff.mp (by omega)
      subst empty
      cases more <;> simp [regexMatchesFrom, regexSearch]
  | succ fuel ih =>
      cases more with
      | zero =>
          have empty : str = [] := List.length_eq_zero_iff.mp (by omega)
          simp [empty, regexMatchesFrom, regexSearch]
      | succ more =>
          simp only [regexMatchesFrom]
          cases searched : regexSearch str with
          | none => rfl
          | some result =>
              have shorter := regexSearch_length searched
              have tail : regexMatchesFrom fuel result.2 = regexMatchesFrom more result.2 :=
                ih (by omega) (by omega)
              simp only [tail]

theorem regexMatches_none {str : CppString} (searched : regexSearch str = none) :
    regexMatches str = ([], str) := by
  unfold regexMatches
  cases str.length <;> simp [regexMatchesFrom, searched]

theorem regexMatches_some {str suffix : CppString} {found : Match}
    (searched : regexSearch str = some (found, suffix)) :
    regexMatches str = (found :: (regexMatches suffix).1, (regexMatches suffix).2) := by
  have shorter := regexSearch_length searched
  obtain ⟨fuel, size⟩ : ∃ fuel, str.length = fuel + 1 := ⟨str.length - 1, by omega⟩
  have later : regexMatchesFrom fuel suffix = regexMatches suffix :=
    regexMatchesFrom_fuel (by omega) (Nat.le_refl _)
  simp only [regexMatches, size, regexMatchesFrom, searched]
  rw [later]
  rfl

theorem getMatched_some {str suffix : CppString} {found : Match}
    (searched : regexSearch str = some (found, suffix)) :
    getMatched str = found.name :: getMatched suffix := by
  simp [getMatched, regexMatches_some searched]

theorem literals_some {str suffix : CppString} {found : Match}
    (searched : regexSearch str = some (found, suffix)) :
    literals str = found.before :: literals suffix := by
  simp [literals, regexMatches_some searched]

theorem literals_length (str : CppString) :
    (literals str).length = (getMatched str).length + 1 := by
  simp [literals, getMatched]

theorem stitch_literals (str : CppString) :
    stitch ([] :: (getMatched str).map placeholder) (literals str) = str := by
  induction str using regexSearch_induction with
  | done str searched => simp [getMatched, literals, regexMatches_none searched]
  | next str found suffix searched rest =>
      obtain ⟨first, later, shape⟩ : ∃ first later, literals suffix = first :: later :=
        List.exists_cons_of_length_pos (by rw [literals_length]; omega)
      rw [getMatched_some searched, literals_some searched]
      rw [shape] at rest ⊢
      simp only [List.map_cons, stitch_cons, List.nil_append] at rest ⊢
      rw [rest]
      exact (regexSearch_sound searched).symm

/-- `get_unmatched` lists the literals, without the last one when a route ends
in a placeholder. -/
theorem getUnmatched_eq (str : CppString) :
    getUnmatched str = literals str ∨
      (getMatched str ≠ [] ∧ literals str = getUnmatched str ++ [[]]) := by
  by_cases dropped : (regexMatches str).2.isEmpty && !(regexMatches str).1.isEmpty
  · right
    simp only [Bool.and_eq_true, List.isEmpty_iff, Bool.not_eq_true',
      List.isEmpty_eq_false_iff] at dropped
    simp [getUnmatched, literals, getMatched, dropped.1, dropped.2]
  · left
    simp only [getUnmatched, literals, if_neg dropped]

theorem regexMatches_stitch {first : CppString} {names rest : List CppString}
    (aligned : names.length = rest.length)
    (literalsClear : ∀ literal ∈ first :: rest, '{' ∉ literal)
    (namesClear : ∀ name ∈ names, '}' ∉ name ∧ ∀ c ∈ name, isLineTerminator c = false) :
    getMatched (stitch ([] :: names.map placeholder) (first :: rest)) = names ∧
      literals (stitch ([] :: names.map placeholder) (first :: rest)) = first :: rest := by
  induction names generalizing first rest with
  | nil =>
      have empty : rest = [] := List.length_eq_zero_iff.mp aligned.symm
      have searched := regexSearch_none (literalsClear first (by simp))
      simp [empty, getMatched, literals, regexMatches_none searched]
  | cons name names ih =>
      cases rest with
      | nil => simp at aligned
      | cons literal rest =>
          have clear := namesClear name (by simp)
          have searched := regexSearch_placeholder (stitch ([] :: names.map placeholder) (literal :: rest))
            (literalsClear first (by simp)) clear.1 clear.2
          have tail := @ih literal rest (by simpa using aligned)
            (fun other member => literalsClear other (List.mem_cons_of_mem _ member))
            (fun other member => namesClear other (List.mem_cons_of_mem _ member))
          have unfolded : stitch ([] :: (name :: names).map placeholder) (first :: literal :: rest) =
              first ++ (placeholder name ++ stitch ([] :: names.map placeholder) (literal :: rest)) := by
            simp
          rw [unfolded, getMatched_some searched, literals_some searched, tail.1, tail.2]
          exact ⟨rfl, rfl⟩

end ChaiBeast.Routing
