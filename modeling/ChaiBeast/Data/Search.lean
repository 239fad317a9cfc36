import Mathlib.Data.List.Basic
import Mathlib.Data.List.Infix

namespace ChaiBeast.Data

/-! Leftmost substring search, and the left-to-right scan built from it.

`find` is the usual first-occurrence search.  `scan` looks for a list of
patterns one after the other, each at its leftmost occurrence in what the
previous ones left over, and reports the gaps it skipped.  `stitch` puts gaps
and patterns back together, so that the soundness of a scan is an equation.
-/

variable {α : Type u}

/-- Gaps and patterns in alternation, the gap first. -/
def stitch : List (List α) → List (List α) → List α
  | gap :: gaps, pattern :: patterns => gap ++ (pattern ++ stitch gaps patterns)
  | _, _ => []

@[simp] theorem stitch_nil (gaps : List (List α)) : stitch gaps [] = [] := by
  cases gaps <;> rfl

@[simp] theorem stitch_cons (gap pattern : List α) (gaps patterns : List (List α)) :
    stitch (gap :: gaps) (pattern :: patterns) = gap ++ (pattern ++ stitch gaps patterns) := rfl

theorem stitch_append {gaps patterns : List (List α)} (moreGaps morePatterns : List (List α))
    (aligned : gaps.length = patterns.length) :
    stitch (gaps ++ moreGaps) (patterns ++ morePatterns) =
      stitch gaps patterns ++ stitch moreGaps morePatterns := by
  induction gaps generalizing patterns with
  | nil =>
      have empty : patterns = [] := List.length_eq_zero_iff.mp aligned.symm
      simp [empty, stitch]
  | cons gap gaps ih =>
      cases patterns with
      | nil => simp at aligned
      | cons pattern patterns =>
          have rest : gaps.length = patterns.length := by simpa using aligned
          simp [ih rest]

/-- A gap of a text stands behind the patterns in front of it. -/
theorem stitch_at {gaps patterns : List (List α)} {gap : List α} {i : Nat}
    (aligned : gaps.length = patterns.length) (here : gaps[i]? = some gap) :
    ∃ rest, stitch gaps patterns = stitch gaps (patterns.take i) ++ (gap ++ rest) := by
  induction gaps generalizing patterns i with
  | nil => simp at here
  | cons first gaps ih =>
      cases patterns with
      | nil => simp at aligned
      | cons pattern patterns =>
          cases i with
          | zero =>
              cases here
              exact ⟨pattern ++ stitch gaps patterns, by simp⟩
          | succ i =>
              obtain ⟨rest, shape⟩ := ih (by simpa using aligned) (by simpa using here)
              exact ⟨rest, by simp [shape]⟩

/-- `text` is `gap`, then the leftmost occurrence of `pattern`, then `rest`. -/
structure FirstAt (pattern gap rest text : List α) : Prop where
  split : text = gap ++ (pattern ++ rest)
  leftmost : ∀ earlier < gap.length, ¬ pattern <+: text.drop earlier

theorem FirstAt.at_start (pattern rest : List α) :
    FirstAt pattern [] rest (pattern ++ rest) :=
  ⟨rfl, by simp⟩

theorem FirstAt.length {pattern gap rest text : List α} (first : FirstAt pattern gap rest text) :
    text.length = gap.length + pattern.length + rest.length := by
  rw [first.split, List.length_append, List.length_append, Nat.add_assoc]

theorem FirstAt.drop {pattern gap rest text : List α} (first : FirstAt pattern gap rest text) :
    text.drop (gap.length + pattern.length) = rest := by
  rw [first.split, ← List.append_assoc, ← List.length_append, List.drop_left]

theorem FirstAt.gap_nil {pattern gap rest text : List α} (first : FirstAt pattern gap rest text)
    (starts : pattern <+: text) : gap = [] := by
  by_contra nonempty
  exact first.leftmost 0 (List.length_pos_iff.mpr nonempty) (by simpa using starts)

theorem FirstAt.of_separator {separator : α} {pattern gap rest : List α}
    (opens : pattern.head? = some separator) (clear : separator ∉ gap) :
    FirstAt pattern gap rest (gap ++ (pattern ++ rest)) := by
  refine ⟨rfl, ?_⟩
  intro earlier within occurs
  cases pattern with
  | nil => simp at opens
  | cons head tail =>
      have headIs : head = separator := by simpa using opens
      subst headIs
      obtain ⟨after, shape⟩ := occurs
      have letter : (gap ++ (head :: tail ++ rest))[earlier]? = some head := by
        have first := congrArg List.head? shape
        simpa [List.head?_drop] using first.symm
      rw [List.getElem?_append_left within] at letter
      exact clear (List.mem_of_getElem? letter)

variable [DecidableEq α]

def find (pattern : List α) : List α → Option Nat
  | [] => if pattern.isEmpty then some 0 else none
  | head :: tail =>
      if pattern.isPrefixOf (head :: tail) then some 0 else (find pattern tail).map (· + 1)

theorem find_of_firstAt {pattern gap rest text : List α}
    (first : FirstAt pattern gap rest text) : find pattern text = some gap.length := by
  obtain ⟨rfl, leftmost⟩ := first
  induction gap with
  | nil =>
      cases pattern with
      | nil => cases rest <;> simp [find]
      | cons head tail =>
          have starts : (head :: tail).isPrefixOf (head :: (tail ++ rest)) = true :=
            List.isPrefixOf_iff_prefix.mpr ⟨rest, rfl⟩
          simp only [List.nil_append, List.cons_append, find, List.length_nil, if_pos starts]
  | cons letter gap ih =>
      have absent : ¬ pattern.isPrefixOf (letter :: gap ++ (pattern ++ rest)) = true := by
        rw [List.isPrefixOf_iff_prefix]
        simpa using leftmost 0 (by simp)
      have later : ∀ earlier < gap.length, ¬ pattern <+: (gap ++ (pattern ++ rest)).drop earlier := by
        intro earlier within
        simpa using leftmost (earlier + 1) (by simpa using within)
      simp only [List.cons_append] at absent ⊢
      simp only [find, if_neg absent, ih later, Option.map_some, List.length_cons]

theorem firstAt_of_find {pattern text : List α} {index : Nat}
    (found : find pattern text = some index) :
    ∃ gap rest, gap.length = index ∧ FirstAt pattern gap rest text := by
  induction text generalizing index with
  | nil =>
      simp only [find] at found
      split at found
      · rename_i empty
        cases found
        have none : pattern = [] := List.isEmpty_iff.mp empty
        exact ⟨[], [], rfl, by simp [none], by simp⟩
      · contradiction
  | cons head tail ih =>
      simp only [find] at found
      split at found
      · rename_i starts
        cases found
        obtain ⟨rest, shape⟩ := List.isPrefixOf_iff_prefix.mp starts
        exact ⟨[], rest, rfl, by simpa using shape.symm, by simp⟩
      · rename_i absent
        obtain ⟨index, foundTail, rfl⟩ := Option.map_eq_some_iff.mp found
        obtain ⟨gap, rest, length, split, leftmost⟩ := ih foundTail
        refine ⟨head :: gap, rest, by simp [length], by simp [split], ?_⟩
        intro earlier within
        cases earlier with
        | zero =>
            rw [List.isPrefixOf_iff_prefix] at absent
            simpa using absent
        | succ earlier => simpa using leftmost earlier (by simpa using within)

/-- Look for the patterns in turn, each leftmost in what is left.  The result
is the gap skipped before each pattern and the text after the last one. -/
def scan : List (List α) → List α → Option (List (List α) × List α)
  | [], text => some ([], text)
  | pattern :: patterns, text =>
      match find pattern text with
      | none => none
      | some index =>
          (scan patterns (text.drop (index + pattern.length))).map
            fun result => (text.take index :: result.1, result.2)

@[simp] theorem scan_nil (text : List α) : scan [] text = some ([], text) := rfl

theorem scan_cons_of_firstAt {pattern gap rest text : List α} (patterns : List (List α))
    (first : FirstAt pattern gap rest text) :
    scan (pattern :: patterns) text =
      (scan patterns rest).map fun result => (gap :: result.1, result.2) := by
  have skipped : text.take gap.length = gap := by rw [first.split, List.take_left]
  simp only [scan, find_of_firstAt first, first.drop, skipped]

theorem scan_cons_inv {pattern text rest : List α} {patterns gaps : List (List α)}
    (scanned : scan (pattern :: patterns) text = some (gaps, rest)) :
    ∃ gap later middle, gaps = gap :: later ∧ FirstAt pattern gap middle text ∧
      scan patterns middle = some (later, rest) := by
  cases found : find pattern text with
  | none => simp [scan, found] at scanned
  | some index =>
      obtain ⟨gap, middle, _, first⟩ := firstAt_of_find found
      rw [scan_cons_of_firstAt patterns first] at scanned
      obtain ⟨⟨later, last⟩, tail, same⟩ := Option.map_eq_some_iff.mp scanned
      simp only [Prod.mk.injEq] at same
      exact ⟨gap, later, middle, same.1.symm, first, by rw [tail, same.2]⟩

theorem scan_length {text rest : List α} {patterns gaps : List (List α)}
    (scanned : scan patterns text = some (gaps, rest)) : gaps.length = patterns.length := by
  induction patterns generalizing text gaps with
  | nil => cases scanned; rfl
  | cons pattern patterns ih =>
      obtain ⟨gap, later, middle, rfl, _, tail⟩ := scan_cons_inv scanned
      simp [ih tail]

/-- A scan stops between any two of its patterns. -/
theorem scan_append_inv {text rest : List α} {patterns more gaps : List (List α)}
    (scanned : scan (patterns ++ more) text = some (gaps, rest)) :
    ∃ front back middle, gaps = front ++ back ∧ scan patterns text = some (front, middle) ∧
      scan more middle = some (back, rest) := by
  induction patterns generalizing text gaps with
  | nil => exact ⟨[], gaps, text, rfl, rfl, scanned⟩
  | cons pattern patterns ih =>
      obtain ⟨gap, later, after, rfl, first, tail⟩ := scan_cons_inv scanned
      obtain ⟨front, back, middle, rfl, here, there⟩ := ih tail
      refine ⟨gap :: front, back, middle, rfl, ?_, there⟩
      rw [scan_cons_of_firstAt _ first, here]
      rfl

theorem scan_sound {text rest : List α} {patterns gaps : List (List α)}
    (scanned : scan patterns text = some (gaps, rest)) :
    text = stitch gaps patterns ++ rest := by
  induction patterns generalizing text gaps with
  | nil => cases scanned; simp
  | cons pattern patterns ih =>
      obtain ⟨gap, later, middle, rfl, first, tail⟩ := scan_cons_inv scanned
      rw [first.split, ih tail]
      simp

/-- Separator-free gaps between patterns that open with the separator are
recovered exactly, and nothing is left over. -/
theorem scan_stitch {separator : α} {gaps patterns : List (List α)}
    (aligned : gaps.length = patterns.length)
    (opens : ∀ pattern ∈ patterns, pattern.head? = some separator)
    (clear : ∀ gap ∈ gaps, separator ∉ gap) :
    scan patterns (stitch gaps patterns) = some (gaps, []) := by
  induction gaps generalizing patterns with
  | nil =>
      have empty : patterns = [] := List.length_eq_zero_iff.mp aligned.symm
      simp [empty]
  | cons gap gaps ih =>
      cases patterns with
      | nil => simp at aligned
      | cons pattern patterns =>
          have first : FirstAt pattern gap (stitch gaps patterns)
              (gap ++ (pattern ++ stitch gaps patterns)) :=
            .of_separator (opens pattern (by simp)) (clear gap (by simp))
          have tail := ih (by simpa using aligned)
            (fun other member => opens other (by simp [member]))
            (fun other member => clear other (by simp [member]))
          rw [stitch_cons, scan_cons_of_firstAt patterns first, tail]
          rfl

/-- Patterns that follow each other without gaps are found one after the
other, behind any gap that keeps the first one leftmost. -/
theorem scan_flatten {pattern gap : List α} {patterns : List (List α)}
    (leftmost : ∀ earlier < gap.length,
      ¬ pattern <+: (gap ++ (pattern ++ patterns.flatten)).drop earlier) :
    scan (pattern :: patterns) (gap ++ (pattern ++ patterns.flatten)) =
      some (gap :: patterns.map fun _ => [], []) := by
  have rest : scan patterns patterns.flatten = some (patterns.map fun _ => [], []) := by
    clear leftmost
    induction patterns with
    | nil => rfl
    | cons next patterns ih =>
        rw [List.flatten_cons, scan_cons_of_firstAt patterns (FirstAt.at_start next _), ih]
        rfl
  rw [scan_cons_of_firstAt patterns ⟨rfl, leftmost⟩, rest]
  rfl

end ChaiBeast.Data
