import ChaiBeast.Routing.Agreement

namespace ChaiBeast.Routing

open ChaiBeast.Data

/-! The lists that `regex_range` makes of one text are views of one sequence of
matches.  What a match is, and which ones are found, is stated here by offsets
in the text, without the searches of the model. -/

/-- `\{(.*?)\}` matches at `offset` and captures `name`, which reaches up to the
first closing brace of its line. -/
structure MatchesAt (s : CppString) (offset : Nat) (name : CppString) : Prop where
  text : placeholder name <+: s.drop offset
  closed : '}' ∉ name
  oneLine : ∀ c ∈ name, isLineTerminator c = false

/-- The offsets and names of all matches from `pos` on, each the leftmost one
behind the end of the previous one. -/
inductive Occurrences (s : CppString) : Nat → List (Nat × CppString) → Prop where
  | done {pos : Nat} (absent : ∀ offset, pos ≤ offset → ∀ name, ¬ MatchesAt s offset name) :
      Occurrences s pos []
  | next {pos offset : Nat} {name : CppString} {later : List (Nat × CppString)}
      (behind : pos ≤ offset) (here : MatchesAt s offset name)
      (leftmost : ∀ earlier, pos ≤ earlier → earlier < offset →
        ∀ other, ¬ MatchesAt s earlier other)
      (rest : Occurrences s (offset + (placeholder name).length) later) :
      Occurrences s pos ((offset, name) :: later)

theorem Occurrences.matches {s : CppString} {pos : Nat} {occurrences : List (Nat × CppString)}
    (all : Occurrences s pos occurrences) :
    ∀ found ∈ occurrences, MatchesAt s found.1 found.2 := by
  induction all with
  | done _ => simp
  | next _ here _ _ ih =>
      intro found member
      rcases List.mem_cons.mp member with rfl | later
      · exact here
      · exact ih found later

theorem MatchesAt.drop {s name : CppString} {pos offset : Nat} :
    MatchesAt (s.drop pos) offset name ↔ MatchesAt s (pos + offset) name := by
  constructor
  · intro found
    exact ⟨by simpa [List.drop_drop] using found.text, found.closed, found.oneLine⟩
  · intro found
    exact ⟨by simpa [List.drop_drop] using found.text, found.closed, found.oneLine⟩

theorem MatchesAt.captureName {c : Char} {rest name : CppString}
    (found : MatchesAt (c :: rest) 0 name) :
    c = '{' ∧ ∃ suffix, captureName rest = some (name, suffix) := by
  obtain ⟨suffix, shape⟩ := found.text
  simp only [placeholder, List.drop_zero, List.cons_append, List.append_assoc, List.cons.injEq,
    List.nil_append] at shape
  obtain ⟨rfl, rfl⟩ := shape
  exact ⟨rfl, suffix, captureName_append suffix found.closed found.oneLine⟩

theorem matchesAt_zero {c : Char} {rest name suffix : CppString} (opening : c = '{')
    (captured : captureName rest = some (name, suffix)) : MatchesAt (c :: rest) 0 name := by
  obtain ⟨closed, oneLine⟩ := captureName_clear captured
  refine ⟨⟨suffix, ?_⟩, closed, oneLine⟩
  simp [placeholder, opening, captureName_sound captured]

theorem regexSearch_absent {str : CppString} (searched : regexSearch str = none) :
    ∀ offset name, ¬ MatchesAt str offset name := by
  induction str with
  | nil =>
      intro offset name found
      simpa [placeholder] using found.text
  | cons c rest ih =>
      simp only [regexSearch] at searched
      split at searched
      · contradiction
      · rename_i uncaptured
        intro offset name found
        cases offset with
        | zero =>
            obtain ⟨opening, suffix, captured⟩ := found.captureName
            simp [opening, captured] at uncaptured
        | succ offset =>
            exact ih (by simpa using searched) offset name ⟨found.text, found.closed, found.oneLine⟩

/-- The search finds the leftmost match. -/
theorem regexSearch_leftmost {str suffix : CppString} {found : Match}
    (searched : regexSearch str = some (found, suffix)) :
    MatchesAt str found.before.length found.name ∧
      ∀ earlier < found.before.length, ∀ name, ¬ MatchesAt str earlier name := by
  induction str generalizing found with
  | nil => simp [regexSearch] at searched
  | cons c rest ih =>
      simp only [regexSearch] at searched
      split at searched
      · rename_i name after captured
        cases searched
        split at captured
        · rename_i opening
          exact ⟨matchesAt_zero (by simpa using opening) captured, by simp⟩
        · contradiction
      · rename_i uncaptured
        obtain ⟨⟨inner, last⟩, tail, same⟩ := Option.map_eq_some_iff.mp searched
        cases same
        obtain ⟨here, leftmost⟩ := ih tail
        refine ⟨⟨here.text, here.closed, here.oneLine⟩, ?_⟩
        intro earlier within name found
        cases earlier with
        | zero =>
            obtain ⟨opening, suffix, captured⟩ := found.captureName
            simp [opening, captured] at uncaptured
        | succ earlier =>
            exact leftmost earlier (by simpa using within) name
              ⟨found.text, found.closed, found.oneLine⟩

/-- The matches with their absolute offsets, the text before them ending at
`pos`. -/
def locate (pos : Nat) : List Match → List (Nat × CppString)
  | [] => []
  | val :: later =>
      (pos + val.before.length, val.name) ::
        locate (pos + val.before.length + val.str.length) later

theorem locate_names (pos : Nat) (found : List Match) :
    (locate pos found).map Prod.snd = found.map Match.name := by
  induction found generalizing pos with
  | nil => rfl
  | cons val later ih => simp [locate, ih]

/-- The state of the accumulation in front of a match that is looked for from
`pos` on: the offset and the length of the match before. -/
def Carried (sofar : Int × List Int) (pos : Nat) : Prop :=
  match sofar.2.getLast? with
  | some back => ∃ offset length : Nat, back = offset ∧ sofar.1 = toInt length ∧ pos = offset + length
  | none => pos = 0

theorem Carried.next {sofar : Int × List Int} {pos : Nat} {val : Match}
    (carried : Carried sofar pos) (small : pos + val.before.length < 2 ^ 31) :
    nextIndex sofar val =
      .ok (toInt val.str.length, sofar.2 ++ [((pos + val.before.length : Nat) : Int)]) := by
  unfold Carried at carried
  cases back : sofar.2.getLast? with
  | none =>
      rw [back] at carried
      have start : pos = 0 := carried
      subst start
      rw [Nat.zero_add] at small
      simp only [nextIndex, back, toInt_of_lt small, pure_eq_ok, Nat.zero_add]
  | some back' =>
      rw [back] at carried
      obtain ⟨offset, length, rfl, last, rfl⟩ := carried
      have sum : (offset : Int) + toInt length = (offset + length : Nat) := by
        rw [toInt_of_lt (by omega), Int.natCast_add]
      have fits : Fits 31 ((offset + length : Nat) : Int) := ⟨by omega, by omega⟩
      have index : toInt (((offset + length : Nat) : Int) + val.before.length) =
          (offset + length + val.before.length : Nat) := by
        rw [← Int.natCast_add, toInt_of_lt small]
      simp only [nextIndex, back, last, sum, checkInt_of_fits fits, index, ok_bind, pure_eq_ok]

theorem foldlM_nextIndex {sofar : Int × List Int} {pos : Nat} (found : List Match)
    (carried : Carried sofar pos) (small : ∀ located ∈ locate pos found, located.1 < 2 ^ 31) :
    (found.foldlM nextIndex sofar).map Prod.snd =
      .ok (sofar.2 ++ (locate pos found).map fun located => (located.1 : Int)) := by
  induction found generalizing sofar pos with
  | nil => simp [locate, Except.map]
  | cons val later ih =>
      have here := carried.next (small _ (List.mem_cons_self ..))
      have behind : Carried (toInt val.str.length, sofar.2 ++ [((pos + val.before.length : Nat) : Int)])
          (pos + val.before.length + val.str.length) := by
        simp only [Carried, List.getLast?_concat]
        exact ⟨_, _, rfl, rfl, rfl⟩
      have rest := ih behind fun located member => small located (List.mem_cons_of_mem _ member)
      rw [List.foldlM_cons, here, ok_bind, rest, locate]
      simp

/-- An index that the accumulation records is an `int`. -/
theorem foldlM_nextIndex_lt {sofar last : Int × List Int} {found : List Match}
    (ran : found.foldlM nextIndex sofar = .ok last) (low : ∀ index ∈ sofar.2, index < 2 ^ 31) :
    ∀ index ∈ last.2, index < 2 ^ 31 := by
  induction found generalizing sofar with
  | nil =>
      cases ran
      exact low
  | cons val later ih =>
      rw [List.foldlM_cons, bind_ok_iff] at ran
      obtain ⟨state, here, rest⟩ := ran
      obtain ⟨index, shape⟩ : ∃ index, state.2 = sofar.2 ++ [toInt index] := by
        unfold nextIndex at here
        split at here
        · obtain ⟨index, _, same⟩ := bind_ok_iff.mp here
          exact ⟨index + val.before.length, by rw [← Except.ok.inj same]⟩
        · exact ⟨val.before.length, by rw [← Except.ok.inj here]⟩
      refine ih rest fun other member => ?_
      rw [shape, List.mem_append, List.mem_singleton] at member
      rcases member with earlier | rfl
      · exact low other earlier
      · exact toInt_lt index

theorem matchIndices_iff (s : CppString) :
    matchIndices s = .ok ((locate 0 (regexMatches s).1).map fun located => (located.1 : Int)) ↔
      ∀ located ∈ locate 0 (regexMatches s).1, located.1 < 2 ^ 31 := by
  refine ⟨fun listed => ?_, fun small => foldlM_nextIndex _ rfl small⟩
  unfold matchIndices at listed
  cases ran : (regexMatches s).1.foldlM nextIndex (0, []) with
  | error fault => simp [ran, Except.map] at listed
  | ok last =>
      rw [ran] at listed
      have indices := Except.ok.inj listed
      intro located member
      have low := foldlM_nextIndex_lt ran (by simp) located.1 (by
        rw [indices]
        exact List.mem_map.mpr ⟨located, member, rfl⟩)
      exact_mod_cast low

theorem regexSearch_drop {s suffix : CppString} {found : Match} {pos : Nat}
    (searched : regexSearch (s.drop pos) = some (found, suffix)) :
    s.drop (pos + found.before.length) = placeholder found.name ++ suffix ∧
      s.drop (pos + found.before.length + found.str.length) = suffix := by
  have shape := regexSearch_sound searched
  have start : s.drop (pos + found.before.length) = placeholder found.name ++ suffix := by
    rw [← List.drop_drop, shape, List.drop_left]
  refine ⟨start, ?_⟩
  rw [← List.drop_drop, start, Match.str, List.drop_left]

/-- The matches listed are the occurrences of the pattern, and the text behind
the last one is what the search leaves over. -/
theorem locate_occurrences (s : CppString) (pos : Nat) :
    Occurrences s pos (locate pos (regexMatches (s.drop pos)).1) ∧
      ∀ last ∈ (locate pos (regexMatches (s.drop pos)).1).getLast?,
        s.drop last.1 = placeholder last.2 ++ (regexMatches (s.drop pos)).2 := by
  generalize text : s.drop pos = str
  induction str using regexSearch_induction generalizing pos with
  | done str searched =>
      rw [regexMatches_none searched]
      refine ⟨.done ?_, by simp [locate]⟩
      intro offset behind name found
      obtain ⟨ahead, rfl⟩ := Nat.exists_eq_add_of_le behind
      rw [← MatchesAt.drop, text] at found
      exact regexSearch_absent searched ahead name found
  | next str found suffix searched ih =>
      subst text
      obtain ⟨here, leftmost⟩ := regexSearch_leftmost searched
      obtain ⟨start, stop⟩ := regexSearch_drop searched
      obtain ⟨rest, last⟩ := ih _ stop
      rw [regexMatches_some searched, locate]
      refine ⟨.next (Nat.le_add_right _ _) (MatchesAt.drop.mp here) ?_ rest, ?_⟩
      · intro earlier behind within other matched
        obtain ⟨ahead, rfl⟩ := Nat.exists_eq_add_of_le behind
        exact leftmost ahead (by omega) other (MatchesAt.drop.mpr matched)
      · rw [List.getLast?_cons]
        cases final : (locate (pos + found.before.length + found.str.length)
          (regexMatches suffix).1).getLast? with
        | some located => simpa [final] using last
        | none =>
            cases more : regexSearch suffix with
            | none => simp [regexMatches_none more, start]
            | some later => simp [regexMatches_some more, locate] at final

theorem endsInPlaceholder_iff_last (s : CppString) :
    EndsInPlaceholder s ↔
      ∃ last ∈ (locate 0 (regexMatches s).1).getLast?, s.drop last.1 = placeholder last.2 := by
  have behind := (locate_occurrences s 0).2
  rw [List.drop_zero] at behind
  rw [endsInPlaceholder_iff]
  cases final : (locate 0 (regexMatches s).1).getLast? with
  | none =>
      cases found : (regexMatches s).1 with
      | nil => simp
      | cons val later => simp [found, locate] at final
  | some last =>
      have some : (regexMatches s).1 ≠ [] := fun none => by simp [none, locate] at final
      have shape := behind last final
      simp [some, shape]

/-- Padded with an empty last piece where the text ends in a match, the
unmatched pieces are the literals. -/
theorem getUnmatched_padded (s : CppString) :
    getUnmatched s ++ (if EndsInPlaceholder s then [[]] else []) = literals s := by
  have length := getUnmatched_length s
  have all := literals_length s
  rcases getUnmatched_eq s with same | ⟨_, padded⟩
  · have unclosed : ¬ EndsInPlaceholder s := fun ends => by
      rw [if_pos ends, same] at length
      omega
    simp [if_neg unclosed, same]
  · have ends : EndsInPlaceholder s := by
      by_contra unclosed
      rw [if_neg unclosed] at length
      rw [padded, List.length_append, List.length_singleton] at all
      omega
    simp [if_pos ends, padded]

/-- The views of a text are made of the same matches: their names, their absolute
offsets, and the pieces between them, whose last one is left out when it is empty
behind a match. -/
structure ViewsAgree (s : CppString) (occurrences : List (Nat × CppString)) : Prop where
  names : getMatched s = occurrences.map Prod.snd
  indices : matchIndices s = .ok (occurrences.map fun found => (found.1 : Int))
  texts : ∀ found ∈ occurrences, placeholder found.2 <+: s.drop found.1
  unclosed : (occurrences = [] ∨ ¬ ∃ last ∈ occurrences.getLast?, s.drop last.1 = placeholder last.2) →
    (getUnmatched s).length = occurrences.length + 1 ∧
      stitch ([] :: (getMatched s).map placeholder) (getUnmatched s) = s
  closed : ¬ (occurrences = [] ∨ ¬ ∃ last ∈ occurrences.getLast?, s.drop last.1 = placeholder last.2) →
    (getUnmatched s).length = occurrences.length ∧
      stitch ([] :: (getMatched s).map placeholder) (getUnmatched s ++ [[]]) = s

/-- The views of a text agree on its matches exactly if an `int` holds the offset of
each of them. -/
theorem views_agree_iff (s : CppString) :
    ∃ occurrences : List (Nat × CppString), Occurrences s 0 occurrences ∧
      occurrences.length = (regexMatches s).1.length ∧
      (ViewsAgree s occurrences ↔ ∀ found ∈ occurrences, found.1 < 2 ^ 31) := by
  have found := (locate_occurrences s 0).1
  rw [List.drop_zero] at found
  have names := locate_names 0 (regexMatches s).1
  have count := congrArg List.length names
  rw [List.length_map, List.length_map] at count
  have matched : (getMatched s).length = (locate 0 (regexMatches s).1).length := by
    rw [count, getMatched, List.length_map]
  have length := getUnmatched_length s
  have whole := stitch_literals s
  rw [← getUnmatched_padded] at whole
  rw [matched] at length
  have ends := endsInPlaceholder_iff_last s
  refine ⟨locate 0 (regexMatches s).1, found, count, fun agree => (matchIndices_iff s).mp agree.indices,
    fun small => ⟨names.symm, (matchIndices_iff s).mpr small,
      fun located member => (found.matches located member).text, ?_, ?_⟩⟩
  · intro unclosed
    have inside : ¬ EndsInPlaceholder s := by
      intro last
      rcases unclosed with none | inside
      · exact last.1 (List.length_eq_zero_iff.mp (by rw [matched, none, List.length_nil]))
      · exact inside (ends.mp last)
    rw [if_neg inside] at length whole
    exact ⟨length, by simpa using whole⟩
  · intro closed
    obtain ⟨_, last⟩ := not_or.mp closed
    rw [if_pos (ends.mpr (not_not.mp last))] at length whole
    exact ⟨length, whole⟩

example : matchIndices "a{b}{}c{d}".toList = .ok [1, 4, 7] := by decide +kernel

theorem views_of_single {value name : CppString} (opened : '{' ∉ value) (closed : '}' ∉ name)
    (oneLine : ∀ c ∈ name, isLineTerminator c = false) :
    MatchesAt (value ++ placeholder name) value.length name ∧
      getMatched (value ++ placeholder name) = [name] ∧
      matchIndices (value ++ placeholder name) = .ok [toInt value.length] := by
  have searched := regexSearch_placeholder [] opened closed oneLine
  rw [List.append_nil] at searched
  have only : regexMatches (value ++ placeholder name) = ([⟨value, name⟩], []) :=
    regexMatches_some searched
  refine ⟨(regexSearch_leftmost searched).1, by rw [getMatched, only]; rfl, ?_⟩
  simp [matchIndices, only, nextIndex, Except.map]

/-- A match behind 2^31 characters is listed at a negative index. -/
theorem long_text_index :
    let s := List.replicate (2 ^ 31) 'a' ++ placeholder "b".toList
    MatchesAt s (2 ^ 31) "b".toList ∧ getMatched s = ["b".toList] ∧
      matchIndices s = .ok [-2 ^ 31] := by
  obtain ⟨here, names, indices⟩ :=
    @views_of_single _ "b".toList (clear_replicate (2 ^ 31) (by decide)) (by decide)
      (by simp [isLineTerminator])
  have negative : toInt ((2 ^ 31 : Nat) : Int) = -2 ^ 31 := by decide
  rw [List.length_replicate] at here indices
  rw [negative] at indices
  exact ⟨here, names, indices⟩

end ChaiBeast.Routing
