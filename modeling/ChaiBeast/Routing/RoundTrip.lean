import ChaiBeast.Routing.PathOffsets
import ChaiBeast.Routing.RequestMapper

namespace ChaiBeast.Routing

open ChaiBeast.Data

/-! Well-formed routes, instantiated and read back. -/

/-- A route `p0{n1}p1..{nk}pk` as its author wrote it: the literal `p0` and the
pairs `(ni, pi)`, with no brace that could be read differently. -/
structure Template where
  first : CppString
  holes : List (CppString × CppString)
  literalsClear : ∀ literal ∈ first :: holes.map Prod.snd, '{' ∉ literal ∧ '}' ∉ literal
  namesClear : ∀ hole ∈ holes,
    '{' ∉ hole.1 ∧ '}' ∉ hole.1 ∧ ∀ c ∈ hole.1, isLineTerminator c = false

namespace Template

def names (template : Template) : List CppString := template.holes.map Prod.fst

def pieces (template : Template) : List CppString := template.first :: template.holes.map Prod.snd

def text (template : Template) : CppString :=
  stitch ([] :: template.names.map placeholder) template.pieces

def fill (template : Template) (values : List CppString) : CppString :=
  stitch ([] :: values) template.pieces

theorem cut_text (template : Template) :
    getMatched template.text = template.names ∧ literals template.text = template.pieces := by
  apply regexMatches_stitch
  · simp [names]
  · exact fun literal member => (template.literalsClear literal member).1
  · intro name member
    obtain ⟨hole, inHoles, rfl⟩ := List.mem_map.mp member
    exact (template.namesClear hole inHoles).2

def Separated (template : Template) : Prop :=
  ∀ hole ∈ template.holes, hole.2.head? = some '/'

instance (template : Template) : Decidable template.Separated :=
  inferInstanceAs (Decidable (∀ hole ∈ template.holes, _))

theorem getUnmatched_text {template : Template} (separated : template.Separated) :
    getUnmatched template.text = template.pieces := by
  rcases getUnmatched_eq template.text with whole | ⟨decorated, dropped⟩
  · rw [whole, template.cut_text.2]
  · rw [template.cut_text.1] at decorated
    obtain ⟨holes, last, shape⟩ : ∃ holes last, template.holes = holes ++ [last] :=
      (List.eq_nil_or_concat' template.holes).resolve_left (by simpa [names] using decorated)
    have empty : last.2 = [] := by
      rw [template.cut_text.2, pieces, shape, List.map_append, ← List.cons_append] at dropped
      exact List.singleton_inj.mp (List.append_inj' dropped rfl).2
    have opens := separated last (by simp [shape])
    simp [empty] at opens

theorem fill_eq (template : Template) (values : List CppString) :
    template.fill values = template.first ++ stitch values (template.holes.map Prod.snd) := by
  simp [fill, pieces]

theorem literal_opens {template : Template} (separated : template.Separated) :
    ∀ literal ∈ template.holes.map Prod.snd, literal.head? = some '/' := by
  intro literal member
  obtain ⟨hole, inHoles, rfl⟩ := List.mem_map.mp member
  exact separated hole inHoles

theorem scan_values {template : Template} (separated : template.Separated)
    {values : List CppString} (aligned : values.length = template.holes.length)
    (slashFree : ∀ value ∈ values, '/' ∉ value) :
    scan (template.holes.map Prod.snd) (stitch values (template.holes.map Prod.snd)) =
      some (values, []) :=
  scan_stitch (by simpa using aligned) (literal_opens separated) slashFree

theorem scan_fill {template : Template} (separated : template.Separated)
    {values : List CppString} (aligned : values.length = template.holes.length)
    (slashFree : ∀ value ∈ values, '/' ∉ value) :
    scan template.pieces (template.fill values) = some ([] :: values, []) := by
  have first := FirstAt.at_start template.first (stitch values (template.holes.map Prod.snd))
  rw [fill_eq, pieces, scan_cons_of_firstAt _ first, scan_values separated aligned slashFree]
  rfl

theorem fill_matched {template : Template} (decorated : template.holes ≠ [])
    (separated : template.Separated) {values : List CppString}
    (aligned : values.length = template.holes.length)
    (slashFree : ∀ value ∈ values, '/' ∉ value) (m : Verb) :
    ((⟨template.text, m⟩ : RequestMapper) == ⟨template.fill values, m⟩) = true := by
  have scanned := scan_fill separated aligned slashFree
  have holes := List.length_pos_iff.mpr decorated
  rw [← getUnmatched_text separated] at scanned
  refine (RequestMapper.beq_iff_scan ?_).mpr ⟨_, scanned⟩
  rw [getUnmatched_text separated, pieces, List.length_cons, List.length_map]
  omega

/-- The text of a filled route in front of value `i`. -/
def before (template : Template) (values : List CppString) (i : Nat) : CppString :=
  stitch ([] :: values) (template.pieces.take (i + 1))

/-- The extractor's `int` for the start of every value leads to that value. -/
def Counted (template : Template) (values : List CppString) : Prop :=
  ∀ i value, values[i]? = some value →
    Routing.Counted (template.fill values) (template.before values i).length value

theorem before_eq (template : Template) (values : List CppString) (i : Nat) :
    template.before values i =
      template.first ++ stitch values ((template.holes.map Prod.snd).take i) := by
  simp [before, pieces]

/-- In a path shorter than 2^31 every value is counted right. -/
theorem counted_of_short {template : Template} {values : List CppString}
    (aligned : values.length = template.holes.length)
    (short : (template.fill values).length < 2 ^ 31) : template.Counted values := by
  intro i value here
  have aligned : values.length = (template.holes.map Prod.snd).length := by simpa using aligned
  obtain ⟨rest, shape⟩ := stitch_at aligned here
  have split : template.fill values = template.before values i ++ (value ++ rest) := by
    rw [fill_eq, before_eq, shape, List.append_assoc]
  rw [split, List.length_append, List.length_append] at short
  have residue : (template.before values i).length % 2 ^ 32 = (template.before values i).length :=
    Nat.mod_eq_of_lt (by omega)
  rw [Routing.Counted, residue, split, List.drop_left]
  exact ⟨by omega, List.prefix_append _ _⟩

theorem values_zipWith {names params : List CppString} (aligned : params.length = names.length) :
    (List.zipWith Parameter.mk names params).map Parameter.value = params := by
  induction params generalizing names with
  | nil => simp
  | cons param params ih =>
      cases names with
      | nil => simp at aligned
      | cons name names => simp [ih (by simpa using aligned)]

/-- A filled route is matched by its own template.  Reading the parameters back
returns the names with the values they were filled with exactly if the extractor
counts every value right. -/
theorem fill_round_trip_iff (template : Template) (decorated : template.holes ≠ [])
    (separated : template.Separated) (values : List CppString)
    (aligned : values.length = template.holes.length)
    (slashFree : ∀ value ∈ values, '/' ∉ value) (m : Verb) (func : HttpFunction) :
    (((⟨template.text, m⟩ : RequestMapper) == ⟨template.fill values, m⟩) = true ∧
      extractParamsFromPath func template.text (template.fill values) =
        .ok { func with
          params := func.params ++ List.zipWith Parameter.mk template.names values }) ↔
      template.Counted values := by
  rw [and_iff_right (fill_matched decorated separated aligned slashFree m)]
  have cut := getUnmatched_text separated
  have several : 1 < (getUnmatched template.text).length := by
    have holes := List.length_pos_iff.mpr decorated
    rw [cut, pieces, List.length_cons, List.length_map]
    omega
  have named : values.length = template.names.length := by
    rw [names, List.length_map, aligned]
  have ran := endsFrom_first template.first (stitch values (template.holes.map Prod.snd))
    (template.holes.map Prod.snd)
  have within : template.first.length ≤ (template.fill values).length := by
    rw [fill_eq, List.length_append]
    exact Nat.le_add_right _ _
  have texts := textsFrom_eq_gaps_iff (scan_values separated aligned slashFree)
    (fun piece member empty => by simpa [empty] using literal_opens separated piece member) within
    (by rw [fill_eq, List.drop_left])
  have counted : template.Counted values ↔ ∀ i gap, values[i]? = some gap →
      Routing.Counted (template.fill values) (template.first.length +
        (stitch values ((template.holes.map Prod.snd).take i)).length) gap := by
    simp only [Counted, before_eq, List.length_append]
  rw [← fill_eq] at ran
  rw [extractParamsFromPath_ok_iff several, counted, ← texts, cut, template.cut_text.1, pieces, ran]
  constructor
  · rintro ⟨last, range, later, params, all, text, bound⟩
    obtain ⟨⟨tail, ends⟩, ran', same⟩ := bind_ok_iff.mp all
    obtain ⟨rfl, rfl⟩ := List.cons_eq_cons.mp (Prod.mk.inj (Except.ok.inj same)).2
    have named' : params.length = template.names.length := by
      rw [textsFrom_length text, endsFrom_length ran', names, List.length_map, List.length_map]
    rw [if_pos named', HttpFunction.mk.injEq, List.append_cancel_left_eq] at bound
    have values' := congrArg (List.map Parameter.value) bound.2
    rw [values_zipWith named, values_zipWith named'] at values'
    rw [← values'] at text
    dsimp only at text
    exact ⟨tail, ends, ran', text⟩
  · rintro ⟨last, ends, tail, params⟩
    refine ⟨last, (0, toInt template.first.length), ends, values, by rw [tail, ok_bind], ?_, ?_⟩
    · dsimp only
      exact params
    · rw [if_pos named]

theorem fill_round_trip_iff_attachment :
    let template : Template :=
      ⟨"/Dump/".toList, [("filename".toList, "/part/".toList), ("n".toList, "/attachment".toList)],
        by decide, by simp [isLineTerminator]⟩
    ((⟨template.text, .get⟩ : RequestMapper) ==
        ⟨template.fill ["core.7".toList, "".toList], .get⟩) = true ∧
      extractParamsFromPath ⟨[], []⟩ template.text
          (template.fill ["core.7".toList, "".toList]) =
        .ok ⟨[], [⟨"filename".toList, "core.7".toList⟩, ⟨"n".toList, "".toList⟩]⟩ := by
  intro template
  have counted : template.Counted ["core.7".toList, "".toList] :=
    counted_of_short rfl (by decide)
  exact (fill_round_trip_iff template (List.cons_ne_nil _ _) (by decide) _ (by decide) (by decide)
    .get ⟨[], []⟩).mpr counted

/-- A value of 2^31 characters is not read back. -/
theorem long_value_not_read :
    let template : Template :=
      ⟨"/".toList, [("n".toList, "/b".toList)], by decide, by simp [isLineTerminator]⟩
    let values := [List.replicate (2 ^ 31) 'a']
    template.holes ≠ [] ∧ template.Separated ∧ values.length = template.holes.length ∧
      (∀ value ∈ values, '/' ∉ value) ∧
      extractParamsFromPath ⟨[], []⟩ template.text (template.fill values) = .error .outOfRange := by
  intro template values
  have text : template.text = "/{n}/b".toList := by decide
  have path (value : CppString) : template.fill [value] = '/' :: (value ++ "/b".toList) := by
    simp [fill_eq, template, stitch]
  refine ⟨List.cons_ne_nil _ _, by decide, rfl, List.forall_mem_singleton.mpr (clear_replicate _ (by decide)), ?_⟩
  rw [text, path]
  exact extractParamsFromPath_long List.length_replicate (clear_replicate _ (by decide)) _

end Template

end ChaiBeast.Routing
