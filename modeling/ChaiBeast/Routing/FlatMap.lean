namespace ChaiBeast.Routing

/-! `flat_map` of include/flat_map.hpp: a vector of entries searched front to
back with the key type's own `==`, stored key first.  Nothing is assumed of
that comparison here, since `request_mapper` compares a template with a path. -/

structure FlatMap (κ : Type u) (ν : Type v) where
  entries : List (κ × ν) := []
deriving Repr

namespace FlatMap

variable {κ : Type u} {ν : Type v} [BEq κ] {map : FlatMap κ ν} {key : κ} {value : ν}

def find (map : FlatMap κ ν) (key : κ) : Option (κ × ν) :=
  map.entries.find? fun v => v.1 == key

def put (map : FlatMap κ ν) (key : κ) (value : ν) : FlatMap κ ν :=
  ⟨map.entries ++ [(key, value)]⟩

/-- Assignment through the first iterator whose key compares equal.  The stored
key stays. -/
def overwrite (key : κ) (value : ν) : List (κ × ν) → List (κ × ν)
  | [] => []
  | v :: rest => if v.1 == key then (v.1, value) :: rest else v :: overwrite key value rest

/-- `map[key] = value`: `operator[]` returns the first hit, or a fresh entry
that the assignment fills at once. -/
def assign (map : FlatMap κ ν) (key : κ) (value : ν) : FlatMap κ ν :=
  match map.find key with
  | some _ => ⟨overwrite key value map.entries⟩
  | none => map.put key value

/-- Erases the first entry whose key compares equal, and leaves any other. -/
def remove (map : FlatMap κ ν) (key : κ) : FlatMap κ ν :=
  ⟨map.entries.eraseP fun v => v.1 == key⟩

theorem find_eq_none_iff : map.find key = none ↔ ∀ v ∈ map.entries, (v.1 == key) = false := by
  simp [find]

theorem overwrite_append_of_hit {front back : List (κ × ν)} {hit : κ × ν}
    (missed : ∀ v ∈ front, (v.1 == key) = false) (matched : (hit.1 == key) = true) :
    overwrite key value (front ++ hit :: back) = front ++ (hit.1, value) :: back := by
  induction front with
  | nil => simp [overwrite, matched]
  | cons v front ih =>
      have tail := ih (fun other member => missed other (by simp [member]))
      simp [overwrite, missed v (by simp), tail]

theorem assign_of_hit {front back : List (κ × ν)} {hit : κ × ν}
    (missed : ∀ v ∈ front, (v.1 == key) = false) (matched : (hit.1 == key) = true) :
    ((⟨front ++ hit :: back⟩ : FlatMap κ ν).assign key value).entries =
      front ++ (hit.1, value) :: back := by
  have found : (⟨front ++ hit :: back⟩ : FlatMap κ ν).find key = some hit :=
    List.find?_eq_some_iff_append.mpr ⟨matched, front, back, rfl, by simpa using missed⟩
  simp only [assign, found]
  exact overwrite_append_of_hit missed matched

theorem assign_of_miss (missed : ∀ v ∈ map.entries, (v.1 == key) = false) :
    (map.assign key value).entries = map.entries ++ [(key, value)] := by
  simp only [assign, find_eq_none_iff.mpr missed, put]

/-- Everything an assignment can do: overwrite the first hit in place, or
append when there is no hit. -/
theorem assign_cases (map : FlatMap κ ν) (key : κ) (value : ν) :
    (∃ front hit back, map.entries = front ++ hit :: back ∧
      (∀ v ∈ front, (v.1 == key) = false) ∧ (hit.1 == key) = true ∧ map.find key = some hit ∧
      (map.assign key value).entries = front ++ (hit.1, value) :: back) ∨
    ((∀ v ∈ map.entries, (v.1 == key) = false) ∧ map.find key = none ∧
      (map.assign key value).entries = map.entries ++ [(key, value)]) := by
  cases found : map.find key with
  | some hit =>
      left
      obtain ⟨matched, front, back, shape, missed⟩ := List.find?_eq_some_iff_append.mp found
      have missed' : ∀ v ∈ front, (v.1 == key) = false := by simpa using missed
      have whole : map = ⟨front ++ hit :: back⟩ := by cases map; exact congrArg FlatMap.mk shape
      exact ⟨front, hit, back, shape, missed', matched, rfl, whole ▸ assign_of_hit missed' matched⟩
  | none =>
      right
      have missed := find_eq_none_iff.mp found
      exact ⟨missed, rfl, assign_of_miss missed⟩

theorem remove_cases (map : FlatMap κ ν) (key : κ) :
    (∃ front hit back, map.entries = front ++ hit :: back ∧
      (∀ v ∈ front, (v.1 == key) = false) ∧ (hit.1 == key) = true ∧
      (map.remove key).entries = front ++ back) ∨
    ((∀ v ∈ map.entries, (v.1 == key) = false) ∧ (map.remove key).entries = map.entries) := by
  by_cases some : ∃ v ∈ map.entries, v.1 == key
  · left
    obtain ⟨v, member, matched⟩ := some
    obtain ⟨hit, front, back, missed, matched, shape, erased⟩ :=
      List.exists_of_eraseP (p := fun v => v.1 == key) member matched
    exact ⟨front, hit, back, shape, by simpa using missed, matched, erased⟩
  · right
    have missed : ∀ v ∈ map.entries, ¬ (v.1 == key) = true := fun v member matched =>
      some ⟨v, member, matched⟩
    exact ⟨by simpa using missed, List.eraseP_of_forall_not missed⟩

theorem mem_assign {entry : κ × ν} (member : entry ∈ (map.assign key value).entries) :
    entry ∈ map.entries ∨
      entry.2 = value ∧ (entry.1 = key ∨ ∃ old, (entry.1, old) ∈ map.entries) := by
  rcases map.assign_cases key value with
    ⟨front, hit, back, shape, _, _, _, assigned⟩ | ⟨_, _, assigned⟩
  · rw [assigned, List.mem_append, List.mem_cons] at member
    rcases member with inFront | rfl | inBack
    · exact .inl (by simp [shape, inFront])
    · exact .inr ⟨rfl, .inr ⟨hit.2, by simp [shape]⟩⟩
    · exact .inl (by simp [shape, inBack])
  · rw [assigned, List.mem_append, List.mem_singleton] at member
    rcases member with old | rfl
    · exact .inl old
    · exact .inr ⟨rfl, .inl rfl⟩

/-- No key hits an entry behind its own: what an entry would be searched with is
not found in front of it. -/
def Unshadowed (map : FlatMap κ ν) : Prop :=
  (map.entries.map Prod.fst).Pairwise fun first later => (first == later) = false

theorem Unshadowed.assign (unshadowed : map.Unshadowed) (key : κ) (value : ν) :
    (map.assign key value).Unshadowed := by
  unfold Unshadowed at unshadowed ⊢
  rcases map.assign_cases key value with
    ⟨front, hit, back, shape, _, _, _, assigned⟩ | ⟨missed, _, assigned⟩
  · have keys : (map.assign key value).entries.map Prod.fst = map.entries.map Prod.fst := by
      simp [assigned, shape]
    rw [keys]
    exact unshadowed
  · rw [assigned, List.map_append, List.pairwise_append]
    refine ⟨unshadowed, List.pairwise_singleton _ _, ?_⟩
    intro stored member later last
    obtain ⟨entry, inMap, rfl⟩ := List.mem_map.mp member
    obtain rfl : later = key := by simpa using last
    exact missed entry inMap

theorem Unshadowed.findIdx? (unshadowed : map.Unshadowed) {j : Nat} {entry : κ × ν}
    (stored : map.entries[j]? = some entry) (reflexive : (entry.1 == entry.1) = true) :
    (map.entries.findIdx? fun v => v.1 == entry.1) = some j := by
  obtain ⟨within, here⟩ := List.getElem?_eq_some_iff.mp stored
  rw [List.findIdx?_eq_some_iff_getElem]
  refine ⟨within, by rw [here]; exact reflexive, ?_⟩
  intro i before
  have ordered := List.pairwise_iff_getElem.mp unshadowed i j (by simp; omega) (by simpa using within)
    before
  simpa [here] using ordered

theorem find_eq_of_findIdx? {j : Nat} {entry : κ × ν}
    (first : (map.entries.findIdx? fun v => v.1 == key) = some j)
    (stored : map.entries[j]? = some entry) : map.find key = some entry := by
  rw [find, List.find?_eq_bind_findIdx?_getElem?, first]
  exact stored

/-- What was just assigned is what a search finds. -/
theorem find_assign (reflexive : (key == key) = true) :
    ∃ stored, (map.assign key value).find key = some (stored, value) := by
  rcases map.assign_cases key value with
    ⟨front, hit, back, _, missed, matched, _, assigned⟩ | ⟨missed, _, assigned⟩
  · refine ⟨hit.1, List.find?_eq_some_iff_append.mpr ⟨matched, front, back, assigned, ?_⟩⟩
    simpa using missed
  · refine ⟨key, List.find?_eq_some_iff_append.mpr ⟨reflexive, map.entries, [], assigned, ?_⟩⟩
    simpa using missed

section Restriction

/-! Restricting a map to a class of keys that the comparison never crosses. -/

variable (select : κ → Bool) (closed : ∀ stored key, (stored == key) = true → select stored = select key)

def restrict (map : FlatMap κ ν) : FlatMap κ ν :=
  ⟨map.entries.filter fun v => select v.1⟩

include closed

theorem find_restrict (kept : select key = true) : (map.restrict select).find key = map.find key := by
  unfold find restrict
  rw [List.find?_filter]
  congr 1
  funext v
  cases matched : v.1 == key with
  | false => simp
  | true => simp [closed _ _ matched, kept]

theorem restrict_assign :
    (map.assign key value).restrict select =
      if select key then (map.restrict select).assign key value else map.restrict select := by
  have entries : ∀ left right : FlatMap κ ν, left.entries = right.entries → left = right := by
    intro left right same
    cases left
    cases right
    exact congrArg FlatMap.mk same
  apply entries
  rcases map.assign_cases key value with
    ⟨front, hit, back, shape, missed, matched, _, assigned⟩ | ⟨missed, _, assigned⟩
  · have sameClass := closed hit.1 key matched
    cases kept : select key with
    | true =>
        have restricted : map.restrict select = ⟨front.filter (fun v => select v.1) ++
            hit :: back.filter fun v => select v.1⟩ := by
          simp [restrict, shape, sameClass, kept]
        rw [restricted, if_pos rfl, assign_of_hit
          (fun v member => missed v (List.mem_filter.mp member).1) matched]
        simp [restrict, assigned, sameClass, kept]
    | false => simp [restrict, assigned, shape, sameClass, kept]
  · cases kept : select key with
    | true =>
        have unmatched : ∀ v ∈ (map.restrict select).entries, (v.1 == key) = false :=
          fun v member => missed v (List.mem_filter.mp member).1
        rw [if_pos rfl, assign_of_miss unmatched]
        simp [restrict, assigned, kept]
    | false => simp [restrict, assigned, kept]

end Restriction

end FlatMap

end ChaiBeast.Routing
