import ChaiBeast.Data.Transition
import ChaiBeast.Routing.FlatMap

namespace ChaiBeast.Routing.FlatMap

open ChaiBeast.Data.Transition

/-! `flat_map` as a finite map, over the key types whose `==` is an equivalence
relation. -/

variable {κ : Type u} {ν : Type v}

/-- The public operations that change a map.  `assign` is `map[key] = value`. -/
inductive Operation (κ : Type u) (ν : Type v) where
  | put (key : κ) (value : ν)
  | assign (key : κ) (value : ν)
  | remove (key : κ)
deriving Repr

namespace Operation

def key : Operation κ ν → κ
  | put key _ | assign key _ | remove key => key

def written : Operation κ ν → Option ν
  | put _ value | assign _ value => some value
  | remove _ => none

def isPut : Operation κ ν → Bool
  | put _ _ => true
  | _ => false

end Operation

variable [BEq κ]

def apply (map : FlatMap κ ν) : Operation κ ν → FlatMap κ ν
  | .put key value => map.put key value
  | .assign key value => map.assign key value
  | .remove key => map.remove key

/-- What a finite map holds under `key` after some operations: the value of the
last one on `key`, unless that removed it. -/
def latest (history : List (Operation κ ν)) (key : κ) : Option ν :=
  history.foldl (fun sofar op => if op.key == key then op.written else sofar) none

structure IsFiniteMap (history : List (Operation κ ν)) (map : FlatMap κ ν) : Prop where
  distinct : (map.entries.map Prod.fst).Pairwise fun key other => (key == other) = false
  found : ∀ key, (map.find key).map Prod.snd = latest history key
  frame : ∀ op other, (op.key == other) = false → (map.apply op).find other = map.find other

/-- A map together with the operations that made it. -/
structure Tracked (κ : Type u) (ν : Type v) where
  history : List (Operation κ ν) := []
  map : FlatMap κ ν := {}
deriving Repr

def Tracked.step (run : Tracked κ ν) (op : Operation κ ν) : Option (Tracked κ ν) :=
  some ⟨run.history ++ [op], run.map.apply op⟩

variable {map : FlatMap κ ν} {key other : κ} {value : ν} {history : List (Operation κ ν)}

theorem latest_append (op : Operation κ ν) :
    latest (history ++ [op]) key = if op.key == key then op.written else latest history key := by
  simp [latest]

theorem find_put : (map.put key value).find other =
    (map.find other).or (if key == other then some (key, value) else none) := by
  rw [find, put, List.find?_append, List.find?_singleton]
  rfl

theorem unshadowed_put_iff :
    (map.put key value).Unshadowed ↔ map.Unshadowed ∧ map.find key = none := by
  rw [find_eq_none_iff, Unshadowed, put, List.map_append, List.pairwise_append]
  simp [Unshadowed]

theorem Unshadowed.remove (unshadowed : map.Unshadowed) (key : κ) :
    (map.remove key).Unshadowed :=
  List.Pairwise.sublist ((List.eraseP_sublist).map _) unshadowed

theorem IsFiniteMap.find_none_iff (finite : IsFiniteMap history map) :
    map.find key = none ↔ latest history key = none := by
  rw [← finite.found, Option.map_eq_none_iff]

section Equivalence

variable [EquivBEq κ]

theorem find_congr (same : key == other) : map.find key = map.find other := by
  simp only [find, BEq.congr_right same]

/-- Operations on one key leave what is found under the others. -/
theorem find_apply_other (map : FlatMap κ ν) (op : Operation κ ν)
    (differ : (op.key == other) = false) : (map.apply op).find other = map.find other := by
  cases op with
  | put key value =>
      have apart : (key == other) = false := differ
      simp [apply, find_put, apart]
  | assign key value =>
      rcases map.assign_cases key value with
        ⟨front, hit, back, shape, _, matched, _, assigned⟩ | ⟨_, _, assigned⟩
      · have apart : (hit.1 == other) = false := (BEq.congr_left matched).trans differ
        simp [apply, find, assigned, shape, apart]
      · have apart : (key == other) = false := differ
        simp [apply, find, assigned, apart]
  | remove key =>
      rcases map.remove_cases key with ⟨front, hit, back, shape, _, matched, erased⟩ | ⟨_, erased⟩
      · have apart : (hit.1 == other) = false := (BEq.congr_left matched).trans differ
        simp [apply, find, erased, shape, apart]
      · simp [apply, find, erased]

theorem Unshadowed.find_remove (unshadowed : map.Unshadowed) (key : κ) :
    (map.remove key).find key = none := by
  rw [find_eq_none_iff]
  rcases map.remove_cases key with ⟨front, hit, back, shape, missed, matched, erased⟩ | ⟨missed, erased⟩
  · intro v member
    rw [erased, List.mem_append] at member
    rcases member with inFront | inBack
    · exact missed v inFront
    · rw [Unshadowed, shape, List.map_append, List.pairwise_append] at unshadowed
      have behind := List.rel_of_pairwise_cons unshadowed.2.1 (List.mem_map_of_mem inBack)
      rw [BEq.congr_left matched] at behind
      exact BEq.symm_false behind
  · rw [erased]
    exact missed

/-- What is found under the key of an operation, unless it puts a stored key. -/
theorem find_apply_same (unshadowed : map.Unshadowed) (op : Operation κ ν)
    (fresh : op.isPut → map.find op.key = none) :
    ((map.apply op).find op.key).map Prod.snd = op.written := by
  cases op with
  | put key value =>
      have absent : map.find key = none := fresh rfl
      simp [apply, Operation.key, Operation.written, find_put, absent]
  | assign key value =>
      obtain ⟨stored, assigned⟩ := @find_assign _ _ _ map key value BEq.rfl
      simp [apply, Operation.key, Operation.written, assigned]
  | remove key =>
      have absent := unshadowed.find_remove key
      simp [apply, Operation.key, Operation.written, absent]

theorem IsFiniteMap.empty : IsFiniteMap [] ({} : FlatMap κ ν) :=
  ⟨.nil, fun _ => rfl, fun op _ => find_apply_other {} op⟩

/-- One step keeps the map finite exactly when it does not put a stored key. -/
theorem IsFiniteMap.apply_iff (finite : IsFiniteMap history map) (op : Operation κ ν) :
    IsFiniteMap (history ++ [op]) (map.apply op) ↔ (op.isPut → latest history op.key = none) := by
  have unshadowed : map.Unshadowed := finite.distinct
  rw [← finite.find_none_iff]
  constructor
  · intro after puts
    cases op with
    | put key value => exact (unshadowed_put_iff.mp after.distinct).2
    | assign key value => contradiction
    | remove key => contradiction
  · intro fresh
    refine ⟨?_, ?_, fun next _ => find_apply_other _ next⟩
    · cases op with
      | put key value => exact unshadowed_put_iff.mpr ⟨unshadowed, fresh rfl⟩
      | assign key value => exact unshadowed.assign key value
      | remove key => exact unshadowed.remove key
    · intro key
      rw [latest_append]
      cases same : op.key == key with
      | false =>
          rw [find_apply_other map op same, finite.found]
          rfl
      | true =>
          rw [← find_congr same, find_apply_same unshadowed op fresh]
          rfl

/-- A `flat_map` is a finite map in every state of a run exactly when the run
puts no key that is stored at that moment: put or assigned, and not removed
since. -/
theorem finite_map_iff (operations : List (Operation κ ν)) :
    Always Tracked.step (fun run => IsFiniteMap run.history run.map) {} operations ↔
      Obeys Tracked.step (fun run op => op.isPut → latest run.history op.key = none)
        {} operations := by
  refine @always_iff_obeys _ _ Tracked.step {} operations (fun _ => True) _ _ ?_ ?_ trivial .empty
  · exact fun _ _ _ _ _ => trivial
  · intro run op next _ finite taken
    cases taken
    exact finite.apply_iff op

end Equivalence

theorem finite_map_iff_removed :
    let operations : List (Operation Nat Nat) := [.put 1 10, .assign 1 20, .remove 1, .put 1 30]
    Always Tracked.step (fun run => IsFiniteMap run.history run.map) {} operations := by
  intro operations
  exact (finite_map_iff operations).mpr (by decide)

/-- A second `put` is hidden behind the first, and comes back when that is
removed. -/
theorem put_twice_not_finite :
    let operations : List (Operation Nat Nat) := [.put 1 10, .put 1 20, .remove 1]
    let map := operations.foldl apply {}
    map.find 1 = some (1, 20) ∧ latest operations 1 = none ∧
      ¬ Always Tracked.step (fun run => IsFiniteMap run.history run.map) {} operations := by
  intro operations map
  refine ⟨by decide, by decide, fun always => ?_⟩
  have finite := always [.put 1 10, .put 1 20] [.remove 1] rfl _ rfl
  exact absurd finite.distinct (by decide)

end ChaiBeast.Routing.FlatMap
