import ChaiBeast.Data.Search
import ChaiBeast.Data.Signed

namespace ChaiBeast

/-! The operations of `std::string`, `std::string_view` and `std::views::split`
that the sources use.  A string is the list of its code units, and `npos` is
`none`. -/

abbrev CppString := List Char

/-- The ways a modeled function fails to return.  Behind `foreign`, an exception
that is no `std::exception`, stand those of undefined behavior: an access past the
end of a vector, an overflow of an `int`, and a question to a parser that has not
read the header. -/
inductive Fault where
  | outOfRange
  | fileNotFound (error : CppString)
  | runtimeError (what : CppString)
  | foreign
  | badSubscript
  | overflow
  | unreadHeader
deriving Repr, DecidableEq

def Fault.undefined : Fault → Bool
  | .badSubscript | .overflow | .unreadHeader => true
  | .outOfRange | .fileNotFound _ | .runtimeError _ | .foreign => false

/-- A `std::exception`, which is what the handlers of the sources catch. -/
def Fault.caught : Fault → Bool
  | .outOfRange | .fileNotFound _ | .runtimeError _ => true
  | .foreign | .badSubscript | .overflow | .unreadHeader => false

@[simp] theorem ok_bind (a : α) (next : α → Except Fault β) : (.ok a >>= next) = next a := rfl

@[simp] theorem error_bind (fault : Fault) (next : α → Except Fault β) :
    (.error fault >>= next) = .error fault := rfl

theorem bind_ok_iff {result : Except ε α} {next : α → Except ε β} {b : β} :
    (result >>= next) = .ok b ↔ ∃ a, result = .ok a ∧ next a = .ok b := by
  cases result <;> simp [bind, Except.bind]

/-- The computation fails with nothing but a `std::exception`. -/
def Caught (result : Except Fault α) : Prop :=
  ∀ fault, result = .error fault → fault.caught = true

@[simp] theorem caught_ok (a : α) : Caught (.ok a) := by
  simp [Caught]

@[simp] theorem caught_error {fault : Fault} :
    Caught (.error fault : Except Fault α) ↔ fault.caught = true := by
  simp [Caught]

instance (result : Except Fault α) : Decidable (Caught result) :=
  match result with
  | .ok a => isTrue (caught_ok a)
  | .error _ => decidable_of_iff _ caught_error.symm

instance decidableForallOk {result : Except ε α} {P : α → Prop} [DecidablePred P] :
    Decidable (∀ a, result = .ok a → P a) :=
  match result with
  | .ok a => decidable_of_iff (P a) (by simp)
  | .error _ => isTrue nofun

theorem Caught.bind {result : Except Fault α} {next : α → Except Fault β} (first : Caught result)
    (rest : ∀ a, Caught (next a)) : Caught (result >>= next) := by
  cases result with
  | ok a => exact rest a
  | error fault => exact caught_error.mpr (caught_error.mp first)

theorem Caught.map {result : Except Fault α} {f : α → β} (caught : Caught result) :
    Caught (result.map f) := by
  cases result with
  | ok a => exact caught_ok (f a)
  | error fault => exact caught_error.mpr (caught_error.mp caught)

@[simp] theorem pure_eq_ok (a : α) : (pure a : Except Fault α) = .ok a := rfl

/-- `beast::error_code`, by its message.  `none` is success. -/
abbrev ErrorCode := Option CppString

/-- A number stored in an `int` of 32 bits. -/
def toInt (n : Int) : Int :=
  Data.wrap 31 n

/-- The result of arithmetic on `int`s. -/
def checkInt (n : Int) : Except Fault Int :=
  if Data.Fits 31 n then .ok n else .error .overflow

/-- `s.substr(pos)`.  A negative `int` becomes a `size_t` above every size. -/
def substr (s : CppString) (pos : Int) : Except Fault CppString :=
  if 0 ≤ pos ∧ pos ≤ s.length then .ok (s.drop pos.toNat) else .error .outOfRange

def substrCount (s : CppString) (pos count : Int) : Except Fault CppString :=
  (substr s pos).map fun tail => if 0 ≤ count then tail.take count.toNat else tail

def subscript (v : List α) (i : Nat) : Except Fault α :=
  match v[i]? with
  | some element => .ok element
  | none => .error .badSubscript

def findFirstOf (s : CppString) (c : Char) : Option Nat :=
  s.findIdx? (· == c)

def findLastOf (s : CppString) (c : Char) : Option Nat :=
  (findFirstOf s.reverse c).map (s.length - 1 - ·)

/-- What a C string function sees of `s`: a C string ends at its first NUL. -/
def cString (s : CppString) : CppString :=
  s.takeWhile (· != '\x00')

/-- `split` of utilities.hpp: the pieces between delimiters, empty ones
included, except that an empty input has no piece. -/
def split (input : CppString) (c : Char) : List CppString :=
  if input.isEmpty then [] else input.splitOn c

@[simp] theorem toInt_zero : toInt 0 = 0 := by decide

theorem toInt_of_lt {n : Nat} (small : n < 2 ^ 31) : toInt n = n := by
  refine Data.wrap_of_fits ⟨?_, ?_⟩
  · omega
  · exact_mod_cast small

theorem toInt_of_mod_lt {n : Nat} (small : n % 2 ^ 32 < 2 ^ 31) : toInt n = (n % 2 ^ 32 : Nat) :=
  Data.wrap_of_mod_lt small

theorem mod_lt_of_toInt_nonneg {n : Nat} (nonneg : 0 ≤ toInt n) : n % 2 ^ 32 < 2 ^ 31 :=
  Data.mod_lt_of_wrap_nonneg nonneg

theorem toInt_lt (n : Int) : toInt n < 2 ^ 31 :=
  (Data.wrap_fits 31 n).2

theorem toInt_add (m n : Int) : toInt (toInt m + n) = toInt (m + n) :=
  Data.wrap_add 31 m n

theorem checkInt_ok_iff {n index : Int} : checkInt n = .ok index ↔ Data.Fits 31 n ∧ index = n := by
  unfold checkInt
  split
  · rename_i fits
    simp [fits, eq_comm]
  · rename_i unfit
    simp [unfit]

theorem checkInt_of_fits {n : Int} (fits : Data.Fits 31 n) : checkInt n = .ok n :=
  checkInt_ok_iff.mpr ⟨fits, rfl⟩

theorem substr_append (front back : CppString) :
    substr (front ++ back) front.length = .ok back := by
  have within : (0 : Int) ≤ front.length ∧ (front.length : Int) ≤ (front ++ back).length := by
    rw [List.length_append]
    omega
  rw [substr, if_pos within, Int.toNat_natCast, List.drop_left]

theorem substr_of_firstAt {pattern gap rest s : CppString}
    (first : Data.FirstAt pattern gap rest s) :
    substr s (gap.length + pattern.length) = .ok rest := by
  rw [first.split, ← List.append_assoc, ← Int.natCast_add, ← List.length_append]
  exact substr_append _ rest

theorem substrCount_append (front middle back : CppString) (count : Int)
    (counted : count = middle.length) :
    substrCount (front ++ (middle ++ back)) front.length count = .ok middle := by
  subst counted
  simp [substrCount, substr_append, Except.map]

theorem cString_of_noNul {s : CppString} (noNul : '\x00' ∉ s) : cString s = s := by
  induction s with
  | nil => rfl
  | cons c s ih =>
      obtain ⟨proper, tail⟩ := not_or.mp (mt List.mem_cons.mpr noNul)
      rw [cString, List.takeWhile_cons_of_pos (by simpa using Ne.symm proper)]
      exact congrArg _ (ih tail)

theorem findFirstOf_append {c : Char} {front : CppString} (back : CppString) (clear : c ∉ front) :
    findFirstOf (front ++ c :: back) c = some front.length := by
  have skipped : front.findIdx? (· == c) = none := by
    rw [List.findIdx?_eq_none_iff]
    intro letter member
    simpa using fun same : letter = c => clear (same ▸ member)
  simp [findFirstOf, List.findIdx?_append, List.findIdx?_cons, skipped]

theorem findFirstOf_none {c : Char} {s : CppString} : findFirstOf s c = none ↔ c ∉ s := by
  simp only [findFirstOf, List.findIdx?_eq_none_iff, beq_eq_false_iff_ne]
  exact ⟨fun absent member => absent c member rfl, fun absent _ member same => absent (same ▸ member)⟩

theorem findLastOf_append {c : Char} (front : CppString) {back : CppString} (clear : c ∉ back) :
    findLastOf (front ++ c :: back) c = some front.length := by
  have mirrored : (front ++ c :: back).reverse = back.reverse ++ c :: front.reverse := by simp
  have unseen : c ∉ back.reverse := by simpa using clear
  have first := findFirstOf_append front.reverse unseen
  simp only [findLastOf, mirrored, first, Option.map_some, List.length_append, List.length_cons,
    List.length_reverse, Option.some.injEq]
  omega

theorem last_cut_inj {c : Char} {front front' back back' : CppString} (clear : c ∉ back)
    (clear' : c ∉ back') (same : front ++ c :: back = front' ++ c :: back') :
    front = front' ∧ back = back' := by
  have cuts := findLastOf_append front clear
  rw [same, findLastOf_append front' clear', Option.some.injEq] at cuts
  obtain ⟨fronts, tails⟩ := List.append_inj same cuts.symm
  exact ⟨fronts, List.tail_eq_of_cons_eq tails⟩

theorem findLastOf_none {c : Char} {s : CppString} : findLastOf s c = none ↔ c ∉ s := by
  simp [findLastOf, findFirstOf_none]

theorem exists_first_split {c : Char} {s : CppString} (member : c ∈ s) :
    ∃ front back, s = front ++ c :: back ∧ c ∉ front :=
  List.eq_append_cons_of_mem member

theorem exists_last_split {c : Char} {s : CppString} (member : c ∈ s) :
    ∃ front back, s = front ++ c :: back ∧ c ∉ back := by
  obtain ⟨front, back, shape, clear⟩ := exists_first_split (List.mem_reverse.mpr member)
  refine ⟨back.reverse, front.reverse, ?_, by simpa using clear⟩
  simpa using congrArg List.reverse shape

/-- What starts a string and lacks `c` ends before the first `c`. -/
theorem prefix_append_cons_iff {c : Char} {stem front : CppString} (back : CppString)
    (clear : c ∉ stem) : stem <+: front ++ c :: back ↔ stem <+: front := by
  constructor
  · intro starts
    have cut : front ++ [c] <+: front ++ c :: back := ⟨back, by simp⟩
    rcases List.prefix_or_prefix_of_prefix starts cut with short | long
    · rcases List.prefix_concat_iff.mp short with whole | inside
      · exact absurd (by simp [whole]) clear
      · exact inside
    · exact absurd (long.subset (by simp)) clear
  · exact fun starts => starts.trans (List.prefix_append _ _)

theorem split_of_clear {c : Char} {s : CppString} (nonempty : s ≠ []) (clear : c ∉ s) :
    split s c = [s] := by
  simp [split, nonempty, List.splitOn_eq_singleton clear]

theorem split_pair {c : Char} {left right : CppString} (leftClear : c ∉ left)
    (rightClear : c ∉ right) : split (left ++ c :: right) c = [left, right] := by
  simp [split, List.splitOn_append_cons_self_of_not_mem leftClear,
    List.splitOn_eq_singleton rightClear]

/-- Splitting undoes joining.  The one list of pieces lost is `[[]]`, whose
join is the empty string. -/
theorem split_intercalate {c : Char} {pieces : List CppString}
    (clear : ∀ piece ∈ pieces, c ∉ piece) (proper : pieces ≠ [[]]) :
    split ([c].intercalate pieces) c = pieces := by
  match pieces with
  | [] => rfl
  | [piece] =>
      have nonempty : piece ≠ [] := fun empty => proper (by rw [empty])
      simpa using split_of_clear nonempty (clear piece (by simp))
  | first :: second :: rest =>
      have pieces := List.splitOn_intercalate c clear (by simp)
      have nonempty : [c].intercalate (first :: second :: rest) ≠ [] := by
        simp [List.intercalate_cons_cons]
      simpa [split, nonempty] using pieces

end ChaiBeast
