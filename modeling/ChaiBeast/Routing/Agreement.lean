import ChaiBeast.Routing.PathOffsets
import ChaiBeast.Routing.Router

namespace ChaiBeast.Routing

open ChaiBeast.Data

/-! The matcher and the extractor look for the pieces of a route in two loops
of their own.  Both loops visit the offsets of one scan, so that the extractor
is safe on every path that the matcher accepts and whose offsets an `int` holds. -/

/-- Where the loop of `operator==` finds each piece, counted from the start of
`path`. -/
def matchOffsets (path : CppString) : List CppString → CppString → Option (List Nat)
  | [], _ => some []
  | str :: pieces, incomingurl =>
      match find str incomingurl with
      | none => none
      | some index =>
          (matchOffsets path pieces (incomingurl.drop (index + str.length))).map
            ((path.length - incomingurl.length + index) :: ·)

/-- Each of the `pieces` is found at its offset of `s`, in what a loop has left of
`s` when it comes to that piece. -/
def FindsAt (left : List CppString → CppString → Prop) (s : CppString) (pieces : List CppString)
    (offsets : List Nat) : Prop :=
  offsets.length = pieces.length ∧ ∀ front str back, pieces = front ++ str :: back →
    ∃ text index, left front text ∧ find str text = some index ∧
      offsets[front.length]? = some (s.length - text.length + index)

/-- The `incomingurl.find` of `operator==`. -/
def MatcherFinds (s : CppString) : List CppString → List Nat → Prop :=
  FindsAt (fun front incomingurl =>
    RequestMapper.matchPieces front s 0 = some (incomingurl, front.length)) s

/-- The `functionname.find` of the extractor. -/
def ExtractorFinds (s : CppString) : List CppString → List Nat → Prop :=
  FindsAt (fun front functionname =>
    ∃ sofar, front.foldlM nextEnd (s, []) = .ok (functionname, sofar)) s

/-- The texts between the occurrences of neighbouring pieces. -/
def textsBetween (path : CppString) (offsets : List Nat) (pieces : List CppString) :
    List CppString :=
  let ends := List.zipWith (fun offset piece => offset + piece.length) offsets pieces
  List.zipWith (fun stop start => (path.take start).drop stop) ends offsets.tail

/-- The texts of `path` between the literals of `template`. -/
def boundTexts (template path : CppString) : List CppString :=
  textsBetween path ((matchOffsets path (getUnmatched template) path).getD []) (getUnmatched template)

def EndsInPlaceholder (template : CppString) : Prop :=
  getMatched template ≠ [] ∧ (literals template).getLast? = some []

instance (template : CppString) : Decidable (EndsInPlaceholder template) :=
  inferInstanceAs (Decidable (_ ∧ _))

def BindsParameters (template : CppString) : Prop :=
  2 ≤ (getUnmatched template).length ∧ ¬ EndsInPlaceholder template

instance (template : CppString) : Decidable (BindsParameters template) :=
  inferInstanceAs (Decidable (_ ∧ _))

def appendedParams (template path : CppString) : List Parameter :=
  if BindsParameters template then
    List.zipWith Parameter.mk (getMatched template) (boundTexts template path)
  else []

theorem endsInPlaceholder_iff (template : CppString) :
    EndsInPlaceholder template ↔ (regexMatches template).2 = [] ∧ (regexMatches template).1 ≠ [] := by
  simp [EndsInPlaceholder, getMatched, literals, and_comm]

theorem getUnmatched_length (template : CppString) :
    (getUnmatched template).length =
      if EndsInPlaceholder template then (getMatched template).length
      else (getMatched template).length + 1 := by
  have ends := endsInPlaceholder_iff template
  by_cases dropped : EndsInPlaceholder template
  · rw [if_pos dropped]
    simp [getUnmatched, getMatched, ends.mp dropped]
  · rw [if_neg dropped]
    rw [ends, not_and, not_not] at dropped
    by_cases empty : (regexMatches template).2 = []
    · simp [getUnmatched, getMatched, dropped empty]
    · simp [getUnmatched, getMatched, empty]

theorem matchOffsets_isSome (path : CppString) (pieces : List CppString) (incomingurl : CppString)
    (splitCount : Nat) :
    (matchOffsets path pieces incomingurl).isSome =
      (RequestMapper.matchPieces pieces incomingurl splitCount).isSome := by
  induction pieces generalizing incomingurl splitCount with
  | nil => rfl
  | cons str pieces ih =>
      simp only [matchOffsets, RequestMapper.matchPieces]
      cases find str incomingurl with
      | none => rfl
      | some index => simp only [Option.isSome_map, ← ih]

theorem matchOffsets_of_scan {path text rest : CppString} {base : Nat} {pieces gaps : List CppString}
    (scanned : scan pieces text = some (gaps, rest)) (behind : base + text.length = path.length) :
    matchOffsets path pieces text = some (startOffsets base gaps pieces) := by
  induction pieces generalizing text base gaps with
  | nil =>
      cases scanned
      rfl
  | cons piece pieces ih =>
      obtain ⟨gap, later, middle, rfl, first, tail⟩ := scan_cons_inv scanned
      have length := first.length
      have start : path.length - text.length + gap.length = base + gap.length := by omega
      have rest := @ih middle (base + gap.length + piece.length) later tail (by omega)
      simp only [matchOffsets, find_of_firstAt first, first.drop, rest, start, Option.map_some,
        startOffsets]

theorem findsAt_of_scan {left : List CppString → CppString → Prop} {s rest : CppString}
    {pieces gaps : List CppString} (scanned : scan pieces s = some (gaps, rest))
    (reached : ∀ front back text frontGaps backGaps, pieces = front ++ back →
      gaps = frontGaps ++ backGaps → scan front s = some (frontGaps, text) → left front text) :
    FindsAt left s pieces (startOffsets 0 gaps pieces) := by
  refine ⟨startOffsets_length 0 (scan_length scanned), ?_⟩
  rintro front str back rfl
  obtain ⟨frontGaps, backGaps, text, rfl, here, there⟩ := scan_append_inv scanned
  obtain ⟨gap, later, middle, rfl, first, _⟩ := scan_cons_inv there
  have aligned := scan_length here
  have split := congrArg List.length (scan_sound here)
  rw [List.length_append] at split
  refine ⟨text, gap.length, reached front _ text frontGaps _ rfl rfl here, find_of_firstAt first, ?_⟩
  rw [startOffsets_append 0 _ _ aligned, ← startOffsets_length 0 aligned,
    List.getElem?_append_right (Nat.le_refl _), Nat.sub_self, startOffsets, List.getElem?_cons_zero]
  exact congrArg some (by omega)

theorem matcherFinds_of_scan {s rest : CppString} {pieces gaps : List CppString}
    (scanned : scan pieces s = some (gaps, rest)) :
    MatcherFinds s pieces (startOffsets 0 gaps pieces) := by
  refine findsAt_of_scan scanned ?_
  intro front _ text _ _ _ _ here
  rw [RequestMapper.matchPieces_eq_scan, here, Option.map_some, Nat.zero_add]

theorem extractorFinds_of_scan {s rest : CppString} {pieces gaps : List CppString}
    (scanned : scan pieces s = some (gaps, rest))
    (small : ∀ offset ∈ startOffsets 0 gaps pieces, offset < 2 ^ 31) :
    ExtractorFinds s pieces (startOffsets 0 gaps pieces) := by
  refine findsAt_of_scan scanned ?_
  rintro front back text frontGaps backGaps rfl rfl here
  rw [startOffsets_append 0 _ _ (scan_length here)] at small
  have ran := (endsFrom_of_scan here (Nat.zero_le s.length) rfl fun offset member =>
    small offset (List.mem_append_left _ member)).1
  rw [Int.natCast_zero, toInt_zero] at ran
  refine ⟨recordedEnds (startOffsets 0 frontGaps front) front, ?_⟩
  rw [foldlM_nextEnd]
  exact congrArg (Except.map _) ran

/-- A search that succeeds lists the offsets at which the loop of `operator==`
finds the pieces. -/
theorem matchOffsets_finds {s : CppString} {pieces : List CppString} {offsets : List Nat}
    (searched : matchOffsets s pieces s = some offsets) : MatcherFinds s pieces offsets := by
  have accepted := matchOffsets_isSome s pieces s 0
  rw [searched, RequestMapper.matchPieces_eq_scan] at accepted
  obtain ⟨⟨gaps, rest⟩, scanned⟩ := Option.isSome_iff_exists.mp (by simpa using accepted.symm)
  have same := @matchOffsets_of_scan s s rest 0 _ _ scanned (Nat.zero_add _)
  rw [searched, Option.some.injEq] at same
  exact same ▸ matcherFinds_of_scan scanned

theorem textsBetween_of_starts (gaps pieces : List CppString) (front rest : CppString)
    (aligned : gaps.length = pieces.length) :
    List.zipWith (fun stop start => ((front ++ (stitch gaps pieces ++ rest)).take start).drop stop)
      (front.length :: List.zipWith (fun offset piece => offset + piece.length)
        (startOffsets front.length gaps pieces) pieces)
      (startOffsets front.length gaps pieces) = gaps := by
  induction gaps generalizing pieces front with
  | nil => simp [startOffsets]
  | cons gap gaps ih =>
      cases pieces with
      | nil => simp at aligned
      | cons piece pieces =>
          have tail := ih pieces (front ++ (gap ++ piece)) (by simpa using aligned)
          have text : front ++ (stitch (gap :: gaps) (piece :: pieces) ++ rest) =
              (front ++ (gap ++ piece)) ++ (stitch gaps pieces ++ rest) := by simp
          have base : (front ++ (gap ++ piece)).length = front.length + gap.length + piece.length := by
            simp [Nat.add_assoc]
          have here : ((front ++ (gap ++ piece) ++ (stitch gaps pieces ++ rest)).take
              (front.length + gap.length)).drop front.length = gap := by
            rw [List.append_assoc, List.append_assoc, List.drop_take, List.drop_left,
              Nat.add_sub_cancel_left, List.take_left]
          rw [base] at tail
          simp only [startOffsets, List.zipWith_cons_cons, text, here, tail]

theorem ranges_within (gaps pieces : List CppString) (base : Nat) (start : Int)
    (aligned : gaps.length = pieces.length)
    (small : ∀ offset ∈ startOffsets base gaps pieces, offset < 2 ^ 31) :
    ∀ range ∈ List.zipWith (fun v1 v2 : Int × Int => (v2.2, v1.1))
        (recordedEnds (startOffsets base gaps pieces) pieces)
        ((start, toInt base) :: recordedEnds (startOffsets base gaps pieces) pieces),
      0 ≤ range.1 ∧ range.1 ≤ range.2 ∧ range.2 ≤ base + (stitch gaps pieces).length := by
  induction gaps generalizing pieces base start with
  | nil => simp [startOffsets, recordedEnds]
  | cons gap gaps ih =>
      cases pieces with
      | nil => simp at aligned
      | cons piece pieces =>
          have here : base + gap.length < 2 ^ 31 := small _ (by simp [startOffsets])
          have tail := ih pieces (base + gap.length + piece.length) (base + gap.length : Nat)
            (by simpa using aligned) fun offset member =>
              small offset (List.mem_cons_of_mem _ member)
          intro range member
          rcases List.mem_cons.mp member with rfl | later
          · dsimp only
            rw [toInt_of_lt (by omega), stitch_cons, List.length_append]
            omega
          · have within := tail range later
            rw [stitch_cons, List.length_append, List.length_append]
            omega

theorem differences_within {path rest : CppString} {pieces gaps : List CppString}
    (several : 1 < pieces.length) (scanned : scan pieces path = some (gaps, rest))
    (small : ∀ offset ∈ startOffsets 0 gaps pieces, offset < 2 ^ 31) :
    ∀ range ∈ adjacentDifference (fun v1 v2 : Int × Int => (v2.2, v1.1))
        (recordedEnds (startOffsets 0 gaps pieces) pieces),
      0 ≤ range.1 ∧ range.1 ≤ range.2 ∧ range.2 ≤ path.length := by
  have sound := congrArg List.length (scan_sound scanned)
  have length := scan_length scanned
  match pieces, gaps with
  | piece :: pieces, gap :: gaps =>
      have later := ranges_within gaps pieces (0 + gap.length + piece.length) (0 + gap.length : Nat)
        (by simpa using length) fun offset member => small offset (List.mem_cons_of_mem _ member)
      -- the second piece stands behind the first, so that an `int` holds the first one's end
      have first : 0 + gap.length + piece.length < 2 ^ 31 := by
        obtain ⟨offset, member⟩ : ∃ offset, offset ∈
            startOffsets (0 + gap.length + piece.length) gaps pieces := by
          refine List.exists_mem_of_length_pos ?_
          rw [startOffsets_length _ (by simpa using length)]
          simpa using several
        have low := small offset (List.mem_cons_of_mem _ member)
        have behind := startOffsets_ge _ _ _ offset member
        omega
      rw [stitch_cons, List.length_append, List.length_append, List.length_append] at sound
      intro range member
      rcases List.mem_cons.mp member with rfl | inside
      · dsimp only
        rw [toInt_of_lt first]
        omega
      · have within := later range inside
        omega

theorem getUnmatched_pos (template : CppString) : 0 < (getUnmatched template).length := by
  rw [getUnmatched_length]
  split
  · rename_i dropped
    exact List.length_pos_iff.mpr dropped.1
  · exact Nat.succ_pos _

theorem scan_of_match {template s : CppString} {m : Verb}
    (matched : ((⟨template, m⟩ : RequestMapper) == ⟨s, m⟩) = true) :
    ∃ gap gaps rest, scan (getUnmatched template) s = some (gap :: gaps, rest) := by
  obtain ⟨_, gaps, rest, scanned, _⟩ := RequestMapper.beq_iff.mp matched
  have length := scan_length scanned
  have pieces := getUnmatched_pos template
  obtain ⟨gap, later, rfl⟩ := List.exists_cons_of_length_pos (by rw [length]; exact pieces)
  exact ⟨gap, later, rest, scanned⟩

theorem boundTexts_of_scan {template s gap rest : CppString} {gaps : List CppString}
    (scanned : scan (getUnmatched template) s = some (gap :: gaps, rest)) :
    boundTexts template s = gaps := by
  have sound := scan_sound scanned
  have length := scan_length scanned
  have offsets := @matchOffsets_of_scan s s rest 0 _ _ scanned (Nat.zero_add _)
  unfold boundTexts
  rw [offsets]
  cases pieces : getUnmatched template with
  | nil => simp [pieces] at length
  | cons piece pieces' =>
      rw [pieces] at sound length
      have between := textsBetween_of_starts gaps pieces' (gap ++ piece) rest (by simpa using length)
      have text : (gap ++ piece) ++ (stitch gaps pieces' ++ rest) = s := by
        rw [sound]
        simp
      rw [text, List.length_append] at between
      simpa [textsBetween, startOffsets] using between

theorem boundTexts_length {template s : CppString} {m : Verb} (binds : BindsParameters template)
    (matched : ((⟨template, m⟩ : RequestMapper) == ⟨s, m⟩) = true) :
    (boundTexts template s).length = (getMatched template).length := by
  obtain ⟨gap, gaps, rest, scanned⟩ := scan_of_match matched
  have length := scan_length scanned
  rw [getUnmatched_length, if_neg binds.2, List.length_cons] at length
  rw [boundTexts_of_scan scanned]
  omega

/-- An `int` holds the offset of every piece, as the last one stands at the end of
the path. -/
def WithinInt (template s : CppString) : Prop :=
  (getUnmatched template).length ≤ 1 ∨
    ∀ last ∈ (getUnmatched template).getLast?, s.length < 2 ^ 31 + last.length

theorem withinInt_of_short (template : CppString) {s : CppString} (short : s.length < 2 ^ 31) :
    WithinInt template s :=
  .inr fun _ _ => Nat.lt_add_right _ short

theorem withinInt_iff {template s : CppString} {m : Verb} {gaps : List CppString}
    {rest : CppString} (matched : ((⟨template, m⟩ : RequestMapper) == ⟨s, m⟩) = true)
    (several : 1 < (getUnmatched template).length)
    (scanned : scan (getUnmatched template) s = some (gaps, rest)) :
    (∀ offset ∈ startOffsets 0 gaps (getUnmatched template), offset < 2 ^ 31) ↔
      WithinInt template s := by
  obtain ⟨whole, used⟩ := (RequestMapper.beq_iff_scan (by omega)).mp matched
  rw [scanned, Option.some.injEq, Prod.mk.injEq] at used
  obtain ⟨rfl, rfl⟩ := used
  have offsets := @startOffsets_lt_iff 0 (2 ^ 31) _ _ _ scanned
  rw [Nat.zero_add] at offsets
  rw [offsets, WithinInt, or_iff_right (by omega)]

/-- What the extractor does to every path that the matcher accepts. -/
theorem extractParamsFromPath_of_match {template s : CppString} {m : Verb}
    (matched : ((⟨template, m⟩ : RequestMapper) == ⟨s, m⟩) = true) (within : WithinInt template s)
    (func : HttpFunction) :
    extractParamsFromPath func template s =
      .ok { func with params := func.params ++ appendedParams template s } := by
  by_cases several : 1 < (getUnmatched template).length
  · obtain ⟨gap, gaps, rest, scanned⟩ := scan_of_match matched
    have small := (withinInt_iff matched several scanned).mpr within
    have length := scan_length scanned
    rw [List.length_cons, getUnmatched_length] at length
    rw [extractParamsFromPath_of_scan several scanned small, appendedParams, boundTexts_of_scan scanned]
    by_cases dropped : EndsInPlaceholder template
    · rw [if_pos dropped] at length
      rw [if_neg (by omega), if_neg fun binds => binds.2 dropped, List.append_nil]
    · rw [if_neg dropped] at length
      rw [if_pos (by omega), if_pos ⟨several, dropped⟩]
  · have single : ¬ BindsParameters template := fun binds => several binds.1
    simp [extractParamsFromPath, several, appendedParams, single]

/-- A request whose name has an entry is dispatched to it. -/
theorem HttpRouter.dispatch_of_find {H : Type} {router : HttpRouter H} {req : VariantRequest}
    {httpfunc : HttpFunction} {entry : RequestMapper × H}
    (parsed : parseFunction req.target = .ok httpfunc)
    (found : router.find ⟨httpfunc.name, req.method⟩ = some entry) :
    router.dispatch req = .ok ⟨entry.1, entry.2,
      { httpfunc with params := httpfunc.params ++ appendedParams entry.1.path httpfunc.name }⟩ := by
  have matched := HttpRouter.find_matches found
  have sameMethod : entry.1.method = req.method := RequestMapper.beq_method matched
  have key : entry.1 = ⟨entry.1.path, req.method⟩ := by rw [← sameMethod]
  rw [key] at matched
  have within := withinInt_of_short entry.1.path (parsed_short parsed)
  have extracted := extractParamsFromPath_of_match matched within httpfunc
  simp only [dispatch, dispatchFrom, parsed, found, extracted, ok_bind, pure_eq_ok]

/-- Once the target is parsed, a request fails in the router only for want of a
route. -/
theorem HttpRouter.processRequest_eq {H ρ : Type} (router : HttpRouter H)
    (handle : H → VariantRequest → HttpFunction → Except Fault ρ) (req : VariantRequest) :
    router.processRequest handle req = parseFunction req.target >>= fun httpfunc =>
      match router.find ⟨httpfunc.name, req.method⟩ with
      | none => .error (.fileNotFound httpfunc.name)
      | some entry => handle entry.2 req
          { httpfunc with params := httpfunc.params ++ appendedParams entry.1.path httpfunc.name } := by
  cases parsed : parseFunction req.target with
  | error fault => simp only [processRequest, dispatch, dispatchFrom, parsed, error_bind]
  | ok httpfunc =>
      cases found : router.find ⟨httpfunc.name, req.method⟩ with
      | none => simp only [processRequest, dispatch, dispatchFrom, parsed, found, ok_bind, error_bind]
      | some entry => simp only [processRequest, dispatch_of_find parsed found, found, ok_bind]

/-- What the extractor is to do to a path whose pieces the matcher found at
`offsets`: it finds and records them at the same places, cuts only ranges of the
path, and appends to the parameters the texts between the literals under the names
of the placeholders, or nothing. -/
structure Agrees (template s : CppString) (offsets : List Nat) (func : HttpFunction) : Prop where
  finds : 2 ≤ (getUnmatched template).length →
    ExtractorFinds s (getUnmatched template) offsets ∧
      ∃ ends, accumulateEnds (getUnmatched template) s = .ok ends ∧
        ends.map Prod.fst = offsets.map (fun offset : Nat => (offset : Int)) ∧
        ∀ range ∈ adjacentDifference (fun v1 v2 => (v2.2, v1.1)) ends,
          0 ≤ range.1 ∧ range.1 ≤ range.2 ∧ range.2 ≤ s.length
  extracts : ∃ params,
    extractParamsFromPath func template s = .ok { func with params := func.params ++ params } ∧
      (BindsParameters template →
        params.length = (getMatched template).length ∧
          params = List.zipWith Parameter.mk (getMatched template)
            (textsBetween s offsets (getUnmatched template))) ∧
      (¬ BindsParameters template → params = [])

theorem Agrees.of_withinInt {template s : CppString} {m : Verb} {offsets : List Nat}
    (matched : ((⟨template, m⟩ : RequestMapper) == ⟨s, m⟩) = true)
    (found : matchOffsets s (getUnmatched template) s = some offsets)
    (within : WithinInt template s) (func : HttpFunction) : Agrees template s offsets func := by
  obtain ⟨gap, gaps, rest, scanned⟩ := scan_of_match matched
  have starts := @matchOffsets_of_scan s s rest 0 _ _ scanned (Nat.zero_add _)
  rw [found, Option.some.injEq] at starts
  refine ⟨?_, _, extractParamsFromPath_of_match matched within func, ?_, ?_⟩
  · intro several
    have small := (withinInt_iff matched several scanned).mpr within
    have ran := (endsFrom_of_scan scanned (Nat.zero_le s.length) rfl small).1
    rw [Int.natCast_zero, toInt_zero] at ran
    subst starts
    refine ⟨extractorFinds_of_scan scanned small, _, by rw [accumulateEnds_eq, ran]; rfl, ?_, ?_⟩
    · exact recordedEnds_fst (startOffsets_length 0 (scan_length scanned))
    · exact differences_within several scanned small
  · intro binds
    refine ⟨?_, ?_⟩
    · rw [appendedParams, if_pos binds, List.length_zipWith, boundTexts_length binds matched,
        Nat.min_self]
    · rw [appendedParams, if_pos binds, boundTexts, found, Option.getD_some]
  · intro silent
    rw [appendedParams, if_neg silent]

theorem Agrees.withinInt {template s : CppString} {m : Verb} {offsets : List Nat}
    {func : HttpFunction} (matched : ((⟨template, m⟩ : RequestMapper) == ⟨s, m⟩) = true)
    (found : matchOffsets s (getUnmatched template) s = some offsets)
    (agrees : Agrees template s offsets func) : WithinInt template s := by
  by_cases several : 1 < (getUnmatched template).length
  · obtain ⟨gap, gaps, rest, scanned⟩ := scan_of_match matched
    have starts := @matchOffsets_of_scan s s rest 0 _ _ scanned (Nat.zero_add _)
    rw [found, Option.some.injEq] at starts
    obtain ⟨_, ends, accumulated, recorded, _⟩ := agrees.finds several
    rw [accumulateEnds_eq] at accumulated
    refine (withinInt_iff matched several scanned).mp fun offset member => ?_
    rw [← starts] at member
    have inEnds : (offset : Int) ∈ ends.map Prod.fst := by
      rw [recorded]
      exact List.mem_map.mpr ⟨offset, member, rfl⟩
    obtain ⟨range, inside, same⟩ := List.mem_map.mp inEnds
    cases ran : endsFrom 0 (getUnmatched template) s with
    | error fault => simp [ran, Except.map] at accumulated
    | ok result =>
        rw [ran] at accumulated
        cases accumulated
        have low := @endsFrom_fst_lt 0 _ _ result.1 result.2 ran range inside
        omega
  · exact .inl (by omega)

/-- The matcher finds its pieces somewhere, and the extractor agrees with it exactly
on the paths whose offsets an `int` holds. -/
theorem extract_agrees_iff {template s : CppString} {m : Verb}
    (matched : ((⟨template, m⟩ : RequestMapper) == ⟨s, m⟩) = true) (func : HttpFunction) :
    ∃ offsets, MatcherFinds s (getUnmatched template) offsets ∧
      (Agrees template s offsets func ↔ WithinInt template s) := by
  obtain ⟨gap, gaps, rest, scanned⟩ := scan_of_match matched
  have found := @matchOffsets_of_scan s s rest 0 _ _ scanned (Nat.zero_add _)
  exact ⟨_, matchOffsets_finds found, fun agrees => agrees.withinInt matched found,
    fun within => .of_withinInt matched found within func⟩

theorem extract_agrees_iff_dump :
    ∃ offsets, MatcherFinds "/dump/7/data".toList (getUnmatched "/dump/{name}/data".toList) offsets ∧
      Agrees "/dump/{name}/data".toList "/dump/7/data".toList offsets ⟨"/dump/7/data".toList, []⟩ := by
  obtain ⟨offsets, finds, agrees⟩ := @extract_agrees_iff "/dump/{name}/data".toList
    "/dump/7/data".toList .get (by decide) ⟨"/dump/7/data".toList, []⟩
  exact ⟨offsets, finds, agrees.mpr (withinInt_of_short _ (by decide))⟩

theorem matched_around {value : CppString} (slashFree : '/' ∉ value) (m : Verb) :
    ((⟨"/{n}/b".toList, m⟩ : RequestMapper) == ⟨'/' :: (value ++ "/b".toList), m⟩) = true := by
  have pieces : getUnmatched "/{n}/b".toList = ["/".toList, "/b".toList] := by decide
  have opens : ∀ piece ∈ ["/".toList, "/b".toList], piece.head? = some '/' := by decide
  have scanned : scan ["/".toList, "/b".toList] (stitch [[], value] ["/".toList, "/b".toList]) =
      some ([[], value], []) :=
    scan_stitch rfl opens (by simpa using slashFree)
  refine (RequestMapper.beq_iff_scan (by rw [pieces]; decide)).mpr ⟨[[], value], ?_⟩
  rw [pieces, ← scanned]
  simp [stitch]

/-- The matcher accepts a path on which the extractor throws. -/
theorem long_path_throws :
    let s := '/' :: (List.replicate (2 ^ 31) 'a' ++ "/b".toList)
    ((⟨"/{n}/b".toList, .get⟩ : RequestMapper) == ⟨s, .get⟩) = true ∧
      extractParamsFromPath ⟨s, []⟩ "/{n}/b".toList s = .error .outOfRange :=
  ⟨matched_around (clear_replicate _ (by decide)) .get,
    extractParamsFromPath_long List.length_replicate (clear_replicate _ (by decide)) _⟩

end ChaiBeast.Routing
