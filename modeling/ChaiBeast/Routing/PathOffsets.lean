import ChaiBeast.Routing.TargetParser

namespace ChaiBeast.Routing

open ChaiBeast.Data

/-! The offsets that the extractor computes.  They are kept in `int`s, so that a
piece is found where a search with `std::size_t`s finds it, but is recorded at its
residue.  What follows says which texts are cut out of a path of any length. -/

theorem findInt_fits (pattern text : CppString) : Fits 31 (findInt pattern text) := by
  unfold findInt
  split
  · exact wrap_fits 31 _
  · decide

theorem findInt_of_firstAt {pattern gap rest text : CppString}
    (first : FirstAt pattern gap rest text) : findInt pattern text = toInt gap.length := by
  simp [findInt, find_of_firstAt first]

/-! ## The run of the accumulation -/

/-- The accumulation without its accumulator: the last piece so far ends at `stop`. -/
def endsFrom (stop : Int) : List CppString → CppString → Except Fault (CppString × List (Int × Int))
  | [], functionname => .ok (functionname, [])
  | v :: names, functionname => do
      let functionname' ← substr functionname (findInt v functionname + v.length)
      let index ← checkInt (stop + findInt v functionname)
      let later ← endsFrom (toInt (index + v.length)) names functionname'
      return (later.1, (index, toInt (index + v.length)) :: later.2)

def lastEnd (sofar : List (Int × Int)) : Int :=
  (sofar.getLast?.map Prod.snd).getD 0

@[simp] theorem lastEnd_concat (sofar : List (Int × Int)) (range : Int × Int) :
    lastEnd (sofar ++ [range]) = range.2 := by
  simp [lastEnd]

theorem nextEnd_eq (functionname : CppString) (sofar : List (Int × Int)) (v : CppString) :
    nextEnd (functionname, sofar) v = do
      let functionname' ← substr functionname (findInt v functionname + v.length)
      let index ← checkInt (lastEnd sofar + findInt v functionname)
      return (functionname', sofar ++ [(index, toInt (index + v.length))]) := by
  have first := checkInt_of_fits (findInt_fits v functionname)
  cases back : sofar.getLast? with
  | none => simp only [nextEnd, lastEnd, back, Option.map_none, Option.getD_none, Int.zero_add, first, ok_bind]
  | some back' => simp only [nextEnd, lastEnd, back, Option.map_some, Option.getD_some]

theorem foldlM_nextEnd (names : List CppString) (functionname : CppString)
    (sofar : List (Int × Int)) :
    names.foldlM nextEnd (functionname, sofar) =
      (endsFrom (lastEnd sofar) names functionname).map fun result => (result.1, sofar ++ result.2) := by
  induction names generalizing functionname sofar with
  | nil => simp [endsFrom, Except.map]
  | cons v names ih =>
      rw [List.foldlM_cons, nextEnd_eq, endsFrom]
      cases substr functionname (findInt v functionname + v.length) with
      | error fault => rfl
      | ok functionname' =>
          cases checkInt (lastEnd sofar + findInt v functionname) with
          | error fault => rfl
          | ok index =>
              simp only [ok_bind, pure_eq_ok, ih, lastEnd_concat]
              cases endsFrom (toInt (index + v.length)) names functionname' with
              | error fault => rfl
              | ok later => simp [Except.map]

theorem accumulateEnds_eq (names : List CppString) (pathfuncname : CppString) :
    accumulateEnds names pathfuncname = (endsFrom 0 names pathfuncname).map Prod.snd := by
  rw [accumulateEnds, foldlM_nextEnd]
  change _ = (endsFrom (lastEnd []) names pathfuncname).map Prod.snd
  cases endsFrom (lastEnd []) names pathfuncname with
  | error fault => rfl
  | ok result => simp [Except.map]

theorem endsFrom_cons_ok_iff {stop : Int} {v functionname last : CppString} {names : List CppString}
    {ends : List (Int × Int)} :
    endsFrom stop (v :: names) functionname = .ok (last, ends) ↔
      ∃ functionname' later,
        substr functionname (findInt v functionname + v.length) = .ok functionname' ∧
        Fits 31 (stop + findInt v functionname) ∧
        endsFrom (toInt (stop + findInt v functionname + v.length)) names functionname' =
          .ok (last, later) ∧
        ends = (stop + findInt v functionname,
          toInt (stop + findInt v functionname + v.length)) :: later := by
  simp only [endsFrom, bind_ok_iff, checkInt_ok_iff, pure_eq_ok, Except.ok.injEq, Prod.mk.injEq]
  constructor
  · rintro ⟨functionname', cut, _, ⟨fits, rfl⟩, ⟨_, later⟩, rest, rfl, rfl⟩
    exact ⟨functionname', later, cut, fits, rest, rfl⟩
  · rintro ⟨functionname', later, cut, fits, rest, rfl⟩
    exact ⟨functionname', cut, _, ⟨fits, rfl⟩, (last, later), rest, rfl, rfl⟩

theorem endsFrom_length {stop : Int} {names : List CppString} {functionname last : CppString}
    {ends : List (Int × Int)} (ran : endsFrom stop names functionname = .ok (last, ends)) :
    ends.length = names.length := by
  induction names generalizing stop functionname ends with
  | nil =>
      cases ran
      rfl
  | cons v names ih =>
      obtain ⟨_, later, _, _, rest, rfl⟩ := endsFrom_cons_ok_iff.mp ran
      rw [List.length_cons, List.length_cons, ih rest]

/-- An offset that the accumulation records is an `int`. -/
theorem endsFrom_fst_lt {stop : Int} {names : List CppString} {functionname last : CppString}
    {ends : List (Int × Int)} (ran : endsFrom stop names functionname = .ok (last, ends)) :
    ∀ range ∈ ends, range.1 < 2 ^ 31 := by
  induction names generalizing stop functionname ends with
  | nil =>
      cases ran
      simp
  | cons v names ih =>
      obtain ⟨_, later, _, fits, rest, rfl⟩ := endsFrom_cons_ok_iff.mp ran
      intro range member
      rcases List.mem_cons.mp member with rfl | inside
      · exact fits.2
      · exact ih rest range inside

/-- The texts that are cut out of `path` between a piece that ends at `stop` and the
ones recorded in `ends`. -/
def textsFrom (path : CppString) (stop : Int) : List (Int × Int) → Except Fault (List CppString)
  | [] => .ok []
  | range :: later => do
      let text ← substrCount path stop (← checkInt (range.1 - stop))
      let texts ← textsFrom path range.2 later
      return text :: texts

theorem mapM_differences (path : CppString) (start stop : Int) (ends : List (Int × Int)) :
    ((List.zipWith (fun v1 v2 : Int × Int => (v2.2, v1.1)) ends ((start, stop) :: ends)).mapM
        fun v => do substrCount path v.1 (← checkInt (v.2 - v.1))) = textsFrom path stop ends := by
  induction ends generalizing start stop with
  | nil => rfl
  | cons range later ih =>
      rw [List.zipWith_cons_cons, List.mapM_cons, ih, textsFrom]
      cases checkInt (range.1 - stop) with
      | error fault => rfl
      | ok count => rfl

theorem textsFrom_cons_ok_iff {path : CppString} {stop : Int} {range : Int × Int}
    {later : List (Int × Int)} {texts : List CppString} :
    textsFrom path stop (range :: later) = .ok texts ↔
      Fits 31 (range.1 - stop) ∧ ∃ text rest, substrCount path stop (range.1 - stop) = .ok text ∧
        textsFrom path range.2 later = .ok rest ∧ texts = text :: rest := by
  simp only [textsFrom, bind_ok_iff, checkInt_ok_iff, pure_eq_ok, Except.ok.injEq]
  constructor
  · rintro ⟨_, ⟨fits, rfl⟩, text, cut, rest, later, rfl⟩
    exact ⟨fits, text, rest, cut, later, rfl⟩
  · rintro ⟨fits, text, rest, cut, later, rfl⟩
    exact ⟨_, ⟨fits, rfl⟩, text, cut, rest, later, rfl⟩

theorem textsFrom_length {path : CppString} {stop : Int} {ends : List (Int × Int)}
    {texts : List CppString} (cut : textsFrom path stop ends = .ok texts) :
    texts.length = ends.length := by
  induction ends generalizing stop texts with
  | nil =>
      cases cut
      rfl
  | cons range later ih =>
      obtain ⟨_, text, rest, _, later, rfl⟩ := textsFrom_cons_ok_iff.mp cut
      rw [List.length_cons, List.length_cons, ih later]

/-- The texts between the recorded pieces, none in front of the first one. -/
def paramTexts (path : CppString) : List (Int × Int) → Except Fault (List CppString)
  | [] => .ok []
  | range :: later => textsFrom path range.2 later

theorem mapM_drop_differences (path : CppString) (ends : List (Int × Int)) :
    (((adjacentDifference (fun v1 v2 : Int × Int => (v2.2, v1.1)) ends).drop 1).mapM
      fun v => do substrCount path v.1 (← checkInt (v.2 - v.1))) = paramTexts path ends := by
  cases ends with
  | nil => rfl
  | cons range later =>
      rw [adjacentDifference, List.drop_succ_cons, List.drop_zero, mapM_differences, paramTexts]

theorem extractParamsFromPath_eq {func : HttpFunction} {template path : CppString}
    (several : 1 < (getUnmatched template).length) :
    extractParamsFromPath func template path =
      endsFrom 0 (getUnmatched template) path >>= fun result =>
        paramTexts path result.2 >>= fun params =>
          .ok (if params.length = (getMatched template).length then
            { func with params := func.params ++ List.zipWith Parameter.mk (getMatched template) params }
          else func) := by
  rw [extractParamsFromPath, if_pos several, accumulateEnds_eq]
  cases endsFrom 0 (getUnmatched template) path with
  | error fault => rfl
  | ok result =>
      simp only [Except.map, ok_bind, mapM_drop_differences]
      cases paramTexts path result.2 with
      | error fault => rfl
      | ok params =>
          simp only [ok_bind, pure_eq_ok]
          split <;> rfl

theorem extractParamsFromPath_ok_iff {func bound : HttpFunction} {template path : CppString}
    (several : 1 < (getUnmatched template).length) :
    extractParamsFromPath func template path = .ok bound ↔
      ∃ last range later params,
        endsFrom 0 (getUnmatched template) path = .ok (last, range :: later) ∧
        textsFrom path range.2 later = .ok params ∧
        bound = if params.length = (getMatched template).length then
          { func with params := func.params ++ List.zipWith Parameter.mk (getMatched template) params }
        else func := by
  rw [extractParamsFromPath_eq several, bind_ok_iff]
  constructor
  · rintro ⟨⟨last, ends⟩, ran, cut⟩
    have length := endsFrom_length ran
    obtain ⟨range, later, rfl⟩ := List.exists_cons_of_length_pos (l := ends) (by omega)
    obtain ⟨params, cut, same⟩ := bind_ok_iff.mp cut
    exact ⟨last, range, later, params, ran, cut, (Except.ok.inj same).symm⟩
  · rintro ⟨last, range, later, params, ran, cut, rfl⟩
    exact ⟨(last, range :: later), ran, bind_ok_iff.mpr ⟨params, cut, rfl⟩⟩

/-- An extractor that returns has cut one text out of the path between any two
neighbouring pieces. -/
theorem extractParamsFromPath_cases {func bound : HttpFunction} {template path : CppString}
    (extracted : extractParamsFromPath func template path = .ok bound) :
    bound = func ∨ ∃ params : List CppString, params.length + 1 = (getUnmatched template).length ∧
      params.length = (getMatched template).length ∧
      bound = { func with params := func.params ++ List.zipWith Parameter.mk (getMatched template) params } := by
  by_cases several : 1 < (getUnmatched template).length
  · obtain ⟨last, range, later, params, ran, cut, rfl⟩ :=
      (extractParamsFromPath_ok_iff several).mp extracted
    have pieces := endsFrom_length ran
    have texts := textsFrom_length cut
    rw [List.length_cons] at pieces
    split
    · rename_i aligned
      exact .inr ⟨params, by omega, aligned, rfl⟩
    · exact .inl rfl
  · left
    rw [extractParamsFromPath, if_neg several] at extracted
    exact (Except.ok.inj extracted).symm

/-! ## What is cut out -/

/-- An `int` still leads from the offset `b` of `path` to `gap`: the residue of `b`
fits together with the length of the gap, and the path has the same text there. -/
def Counted (path : CppString) (b : Nat) (gap : CppString) : Prop :=
  b % 2 ^ 32 + gap.length < 2 ^ 31 ∧ gap <+: path.drop (b % 2 ^ 32)

instance (path : CppString) (b : Nat) (gap : CppString) : Decidable (Counted path b gap) :=
  inferInstanceAs (Decidable (_ ∧ _))

theorem substrCount_within {s : CppString} {pos : Nat} (within : pos ≤ s.length) (count : Int) :
    substrCount s pos count =
      .ok (if 0 ≤ count then (s.drop pos).take count.toNat else s.drop pos) := by
  have inside : (0 : Int) ≤ pos ∧ (pos : Int) ≤ s.length := by omega
  rw [substrCount, substr, if_pos inside, Int.toNat_natCast]
  rfl

theorem substr_of_neg {s : CppString} {pos : Int} (negative : pos < 0) :
    substr s pos = .error .outOfRange := by
  rw [substr, if_neg (by omega)]

theorem Counted.cut {path gap v rest functionname : CppString} {b : Nat}
    (counted : Counted path b gap) (first : FirstAt v gap rest functionname)
    (within : b ≤ path.length) :
    toInt b + findInt v functionname = (b % 2 ^ 32 + gap.length : Nat) ∧
      Fits 31 (toInt b + findInt v functionname) ∧
      substrCount path (toInt b) (findInt v functionname) = .ok gap := by
  obtain ⟨small, starts⟩ := counted
  have residue : toInt b = (b % 2 ^ 32 : Nat) := toInt_of_mod_lt (by omega)
  have length : findInt v functionname = gap.length := by
    rw [findInt_of_firstAt first, toInt_of_lt (by omega)]
  have lower : b % 2 ^ 32 ≤ path.length := (Nat.mod_le _ _).trans within
  refine ⟨by rw [residue, length, Int.natCast_add], ?_, ?_⟩
  · rw [residue, length]
    constructor
    · omega
    · omega
  · rw [residue, length, substrCount_within lower, if_pos (by omega), Int.toNat_natCast]
    exact congrArg Except.ok (List.prefix_iff_eq_take.mp starts).symm

/-- The text that is cut out in front of a piece is the one that the search skipped
exactly where the offset is counted right. -/
theorem counted_iff {path gap v rest functionname : CppString} {b : Nat}
    (first : FirstAt v gap rest functionname) (nonempty : v ≠ []) (within : b ≤ path.length)
    (behind : path.drop b = functionname) :
    (Fits 31 (toInt b + findInt v functionname) ∧
      substrCount path (toInt b) (findInt v functionname) = .ok gap) ↔ Counted path b gap := by
  refine ⟨?_, fun counted => (counted.cut first within).2⟩
  rintro ⟨fits, cut⟩
  have length := first.length
  have tail : path.length - b = functionname.length := by rw [← behind, List.length_drop]
  have piece := List.length_pos_iff.mpr nonempty
  have nonneg : 0 ≤ toInt b := by
    by_contra negative
    rw [substrCount, substr_of_neg (by omega)] at cut
    cases cut
  have residue := toInt_of_mod_lt (mod_lt_of_toInt_nonneg nonneg)
  have lower : b % 2 ^ 32 ≤ b := Nat.mod_le _ _
  rw [residue, substrCount_within (lower.trans within), findInt_of_firstAt first,
    Except.ok.injEq] at cut
  rw [residue, findInt_of_firstAt first] at fits
  by_cases positive : 0 ≤ toInt gap.length
  · have small := mod_lt_of_toInt_nonneg positive
    rw [if_pos positive, toInt_of_mod_lt small, Int.toNat_natCast] at cut
    have taken := congrArg List.length cut
    rw [List.length_take] at taken
    have whole : gap.length % 2 ^ 32 = gap.length := by
      have below := Nat.mod_le gap.length (2 ^ 32)
      omega
    rw [toInt_of_mod_lt small, whole] at fits
    refine ⟨?_, ?_⟩
    · have upper := fits.2
      omega
    · rw [← cut]
      exact List.take_prefix _ _
  · -- a negative count takes the rest of the path, which has the piece behind the gap
    rw [if_neg positive] at cut
    have rest := congrArg List.length cut
    rw [List.length_drop] at rest
    omega

/-- Where the offset is counted right, the accumulation goes on behind the piece. -/
theorem Counted.endsFrom_cons {path gap v rest functionname : CppString} {b : Nat}
    (counted : Counted path b gap) (first : FirstAt v gap rest functionname)
    (within : b ≤ path.length) (names : List CppString) :
    endsFrom (toInt b) (v :: names) functionname =
      endsFrom (toInt (b + gap.length + v.length : Nat)) names rest >>= fun later =>
        .ok (later.1, (((b % 2 ^ 32 + gap.length : Nat) : Int),
          toInt (b + gap.length + v.length : Nat)) :: later.2) := by
  obtain ⟨index, fits, _⟩ := counted.cut first within
  have small := counted.1
  have found : findInt v functionname = gap.length := by
    rw [findInt_of_firstAt first, toInt_of_lt (by omega)]
  have residue : toInt b = (b % 2 ^ 32 : Nat) := toInt_of_mod_lt (by omega)
  have stop : toInt (((b % 2 ^ 32 + gap.length : Nat) : Int) + v.length) =
      toInt (b + gap.length + v.length : Nat) := by
    have added := toInt_add b (gap.length + v.length)
    rw [residue, ← Int.add_assoc, ← Int.add_assoc] at added
    exact_mod_cast added
  rw [endsFrom, checkInt_of_fits fits, index, found, substr_of_firstAt first, ok_bind, ok_bind, stop]
  simp only [pure_eq_ok]

theorem Counted.textsFrom_cons {path gap v rest functionname : CppString} {b : Nat}
    (counted : Counted path b gap) (first : FirstAt v gap rest functionname)
    (within : b ≤ path.length) (stop : Int) (ends : List (Int × Int)) :
    textsFrom path (toInt b) (((b % 2 ^ 32 + gap.length : Nat), stop) :: ends) =
      textsFrom path stop ends >>= fun texts => .ok (gap :: texts) := by
  obtain ⟨index, _, cut⟩ := counted.cut first within
  have count : ((b % 2 ^ 32 + gap.length : Nat) : Int) - toInt b = findInt v functionname := by
    rw [← index]
    omega
  rw [textsFrom, count, checkInt_of_fits (findInt_fits _ _), ok_bind, cut, ok_bind]
  simp only [pure_eq_ok]

/-- A piece that starts the path stands at offset 0. -/
theorem endsFrom_first (first rest : CppString) (names : List CppString) :
    endsFrom 0 (first :: names) (first ++ rest) =
      endsFrom (toInt first.length) names rest >>= fun later =>
        .ok (later.1, (0, toInt first.length) :: later.2) := by
  have start : Counted (first ++ rest) 0 [] := ⟨by decide, List.nil_prefix⟩
  have ran := start.endsFrom_cons (FirstAt.at_start first rest) (Nat.zero_le _) names
  simpa only [Int.natCast_zero, toInt_zero, List.length_nil, Nat.zero_add, Nat.zero_mod] using ran

theorem drop_behind {path gap v rest functionname : CppString} {b : Nat}
    (first : FirstAt v gap rest functionname) (within : b ≤ path.length)
    (behind : path.drop b = functionname) :
    path.drop (b + gap.length + v.length) = rest ∧ b + gap.length + v.length ≤ path.length := by
  have length := first.length
  have tail : path.length - b = functionname.length := by rw [← behind, List.length_drop]
  refine ⟨?_, by omega⟩
  rw [Nat.add_assoc, ← List.drop_drop, behind, first.drop]

/-- The gaps of a scan are cut out of the path exactly if the offset of each of
them is counted right. -/
theorem textsFrom_eq_gaps_iff {path functionname rest : CppString} {names gaps : List CppString}
    {b : Nat} (scanned : scan names functionname = some (gaps, rest))
    (nonempty : ∀ piece ∈ names, piece ≠ []) (within : b ≤ path.length)
    (behind : path.drop b = functionname) :
    (∃ last ends, endsFrom (toInt b) names functionname = .ok (last, ends) ∧
      textsFrom path (toInt b) ends = .ok gaps) ↔
      ∀ i gap, gaps[i]? = some gap → Counted path (b + (stitch gaps (names.take i)).length) gap := by
  induction names generalizing functionname gaps b with
  | nil =>
      cases scanned
      simp [endsFrom, textsFrom]
  | cons v names ih =>
      obtain ⟨gap, later, middle, rfl, first, tail⟩ := scan_cons_inv scanned
      obtain ⟨behind', within'⟩ := drop_behind first within behind
      have rest := ih tail (fun piece member => nonempty piece (by simp [member])) within' behind'
      have head : (∀ i text, (gap :: later)[i]? = some text →
            Counted path (b + (stitch (gap :: later) ((v :: names).take i)).length) text) ↔
          Counted path b gap ∧ ∀ i text, later[i]? = some text →
            Counted path (b + gap.length + v.length + (stitch later (names.take i)).length) text := by
        constructor
        · intro all
          refine ⟨by simpa using all 0 gap rfl, ?_⟩
          intro i text found
          simpa [Nat.add_assoc] using all (i + 1) text found
        · rintro ⟨here, all⟩ i text found
          cases i with
          | zero =>
              cases found
              simpa using here
          | succ i => simpa [Nat.add_assoc] using all i text found
      rw [head, ← rest]
      constructor
      · rintro ⟨last, ends, ran, cut⟩
        have counted : Counted path b gap := by
          obtain ⟨_, later, _, fits, _, rfl⟩ := endsFrom_cons_ok_iff.mp ran
          obtain ⟨_, text, texts, here, _, same⟩ := textsFrom_cons_ok_iff.mp cut
          obtain ⟨rfl, _⟩ := List.cons_eq_cons.mp same
          have count : toInt b + findInt v functionname - toInt b = findInt v functionname := by omega
          rw [count] at here
          exact (counted_iff first (nonempty v (by simp)) within behind).mp ⟨fits, here⟩
        rw [counted.endsFrom_cons first within] at ran
        obtain ⟨⟨tail, ends'⟩, ran', same⟩ := bind_ok_iff.mp ran
        have recorded := (Prod.mk.inj (Except.ok.inj same)).2
        rw [← recorded, counted.textsFrom_cons first within] at cut
        obtain ⟨texts, cut', same⟩ := bind_ok_iff.mp cut
        rw [(List.cons_eq_cons.mp (Except.ok.inj same)).2] at cut'
        exact ⟨counted, tail, ends', ran', cut'⟩
      · rintro ⟨counted, last, ends, ran, cut⟩
        refine ⟨last, _, by rw [counted.endsFrom_cons first within, ran, ok_bind], ?_⟩
        rw [counted.textsFrom_cons first within, cut, ok_bind]

/-- A gap of 2^31 characters is recorded as a negative number. -/
theorem extractParamsFromPath_long {value : CppString} (length : value.length = 2 ^ 31)
    (slashFree : '/' ∉ value) (func : HttpFunction) :
    extractParamsFromPath func "/{n}/b".toList ('/' :: (value ++ "/b".toList)) = .error .outOfRange := by
  have pieces : getUnmatched "/{n}/b".toList = ["/".toList, "/b".toList] := by decide
  have second : FirstAt "/b".toList value [] (value ++ "/b".toList) :=
    .of_separator rfl slashFree
  have ran := endsFrom_first "/".toList (value ++ "/b".toList) ["/b".toList]
  have negative : findInt "/b".toList (value ++ "/b".toList) + ("/b".toList.length : Int) < 0 := by
    rw [findInt_of_firstAt second, length]
    decide
  have stuck (stop : Int) : endsFrom stop ["/b".toList] (value ++ "/b".toList) = .error .outOfRange := by
    rw [endsFrom, substr_of_neg negative, error_bind]
  rw [stuck, error_bind] at ran
  rw [extractParamsFromPath_eq (by rw [pieces]; decide), pieces]
  exact congrArg (· >>= _) ran

theorem clear_replicate {c : Char} (n : Nat) (other : c ≠ 'a') : c ∉ List.replicate n 'a' :=
  fun member => other (List.eq_of_mem_replicate member)

/-! ## Paths short enough -/

/-- Where the pieces of a scan stand. -/
def startOffsets (base : Nat) : List CppString → List CppString → List Nat
  | gap :: gaps, piece :: pieces =>
      (base + gap.length) :: startOffsets (base + gap.length + piece.length) gaps pieces
  | _, _ => []

theorem startOffsets_length {gaps pieces : List CppString} (base : Nat)
    (aligned : gaps.length = pieces.length) :
    (startOffsets base gaps pieces).length = pieces.length := by
  induction gaps generalizing base pieces with
  | nil => simpa [startOffsets] using aligned
  | cons gap gaps ih =>
      cases pieces with
      | nil => simp at aligned
      | cons piece pieces => simp [startOffsets, ih _ (by simpa using aligned)]

theorem startOffsets_append {gaps pieces : List CppString} (base : Nat)
    (moreGaps morePieces : List CppString) (aligned : gaps.length = pieces.length) :
    startOffsets base (gaps ++ moreGaps) (pieces ++ morePieces) =
      startOffsets base gaps pieces ++
        startOffsets (base + (stitch gaps pieces).length) moreGaps morePieces := by
  induction gaps generalizing base pieces with
  | nil =>
      have empty : pieces = [] := List.length_eq_zero_iff.mp aligned.symm
      simp [empty, startOffsets]
  | cons gap gaps ih =>
      cases pieces with
      | nil => simp at aligned
      | cons piece pieces =>
          have rest := ih (base + gap.length + piece.length) (by simpa using aligned)
          simp only [List.cons_append, startOffsets, rest, stitch_cons, List.length_append]
          simp only [Nat.add_assoc]

theorem startOffsets_ge (base : Nat) (gaps pieces : List CppString) :
    ∀ offset ∈ startOffsets base gaps pieces, base ≤ offset := by
  induction gaps generalizing base pieces with
  | nil => simp [startOffsets]
  | cons gap gaps ih =>
      cases pieces with
      | nil => simp [startOffsets]
      | cons piece pieces =>
          intro offset member
          rcases List.mem_cons.mp member with rfl | later
          · exact Nat.le_add_right _ _
          · have behind := ih _ pieces offset later
            omega

/-- Where the pieces use up the text, the last one stands at its end, and the
others stand in front of it. -/
theorem startOffsets_lt_iff {base bound : Nat} {functionname : CppString}
    {names gaps : List CppString} (scanned : scan names functionname = some (gaps, [])) :
    (∀ offset ∈ startOffsets base gaps names, offset < bound) ↔
      ∀ last ∈ names.getLast?, base + functionname.length < bound + last.length := by
  induction names generalizing base functionname gaps with
  | nil =>
      cases scanned
      simp [startOffsets]
  | cons v names ih =>
      obtain ⟨gap, later, middle, rfl, first, tail⟩ := scan_cons_inv scanned
      have length := first.length
      cases names with
      | nil =>
          cases tail
          simp only [startOffsets, List.mem_singleton, forall_eq, List.getLast?_singleton,
            Option.mem_def, Option.some.injEq, forall_eq', length, List.length_nil]
          omega
      | cons w names =>
          obtain ⟨gap', later', _, rfl, _, _⟩ := scan_cons_inv tail
          have rest := @ih (base + gap.length + v.length) middle _ tail
          have total : base + gap.length + v.length + middle.length = base + functionname.length := by
            omega
          rw [total] at rest
          rw [List.getLast?_cons_cons, ← rest, startOffsets, List.forall_mem_cons]
          refine and_iff_right_of_imp fun low => ?_
          have next := low _ (List.mem_cons_self ..)
          omega

theorem counted_of_lt {path gap v rest functionname : CppString} {b : Nat}
    (first : FirstAt v gap rest functionname) (behind : path.drop b = functionname)
    (small : b + gap.length < 2 ^ 31) : b % 2 ^ 32 = b ∧ Counted path b gap := by
  have residue : b % 2 ^ 32 = b := Nat.mod_eq_of_lt (by omega)
  refine ⟨residue, ?_, ?_⟩
  · rwa [residue]
  · rw [residue, behind, first.split]
    exact List.prefix_append _ _

/-- What the accumulation records for pieces at `offsets`.  Only an end may be out
of the range of an `int`. -/
def recordedEnds (offsets : List Nat) (names : List CppString) : List (Int × Int) :=
  List.zipWith (fun (offset : Nat) (v : CppString) =>
    ((offset : Int), toInt (offset + v.length : Nat))) offsets names

theorem recordedEnds_fst {offsets : List Nat} {names : List CppString}
    (aligned : offsets.length = names.length) :
    (recordedEnds offsets names).map Prod.fst = offsets.map fun offset : Nat => (offset : Int) := by
  induction offsets generalizing names with
  | nil => rfl
  | cons offset offsets ih =>
      cases names with
      | nil => simp at aligned
      | cons v names =>
          have rest := @ih names (by simpa using aligned)
          simpa [recordedEnds] using rest

theorem endsFrom_of_scan {path functionname rest : CppString} {names gaps : List CppString}
    {b : Nat} (scanned : scan names functionname = some (gaps, rest)) (within : b ≤ path.length)
    (behind : path.drop b = functionname)
    (small : ∀ offset ∈ startOffsets b gaps names, offset < 2 ^ 31) :
    endsFrom (toInt b) names functionname =
        .ok (rest, recordedEnds (startOffsets b gaps names) names) ∧
      textsFrom path (toInt b) (recordedEnds (startOffsets b gaps names) names) = .ok gaps := by
  induction names generalizing functionname gaps b with
  | nil =>
      cases scanned
      exact ⟨rfl, rfl⟩
  | cons v names ih =>
      obtain ⟨gap, later, middle, rfl, first, tail⟩ := scan_cons_inv scanned
      obtain ⟨behind', within'⟩ := drop_behind first within behind
      obtain ⟨ran, cut⟩ := ih tail within' behind' fun offset member =>
        small offset (by simp [startOffsets, member])
      obtain ⟨residue, counted⟩ := counted_of_lt first behind (small _ (by simp [startOffsets]))
      have head := counted.endsFrom_cons first within names
      have text := counted.textsFrom_cons first within (toInt (b + gap.length + v.length : Nat))
        (recordedEnds (startOffsets (b + gap.length + v.length) later names) names)
      rw [residue] at head text
      rw [ran, ok_bind] at head
      rw [cut, ok_bind] at text
      exact ⟨head, text⟩

/-- What the extractor does to every path whose pieces a scan finds at offsets
below 2^31. -/
theorem extractParamsFromPath_of_scan {func : HttpFunction} {template path rest gap : CppString}
    {gaps : List CppString} (several : 1 < (getUnmatched template).length)
    (scanned : scan (getUnmatched template) path = some (gap :: gaps, rest))
    (small : ∀ offset ∈ startOffsets 0 (gap :: gaps) (getUnmatched template), offset < 2 ^ 31) :
    extractParamsFromPath func template path =
      .ok (if gaps.length = (getMatched template).length then
        { func with params := func.params ++ List.zipWith Parameter.mk (getMatched template) gaps }
      else func) := by
  obtain ⟨ran, texts⟩ := endsFrom_of_scan scanned (Nat.zero_le path.length) rfl small
  obtain ⟨piece, pieces, cut⟩ := List.exists_cons_of_length_pos (Nat.lt_trans Nat.zero_lt_one several)
  rw [Int.natCast_zero, toInt_zero] at ran texts
  rw [extractParamsFromPath_eq several, ran, ok_bind]
  rw [cut, startOffsets, recordedEnds, List.zipWith_cons_cons] at texts ⊢
  obtain ⟨_, text, params, _, later, same⟩ := textsFrom_cons_ok_iff.mp texts
  rw [← (List.cons_eq_cons.mp same).2] at later
  rw [paramTexts, later, ok_bind]

end ChaiBeast.Routing
