namespace ChaiBeast.Data.OrderedMap

/-! Finite maps kept in order of first insertion, as association lists with
equality of keys.  The client decides how to search them; the lemmas here say
how insertion treats the keys and how it restricts to a part of the key space. -/

variable {κ : Type u} {ν : Type v} [DecidableEq κ] {key : κ} {value : ν} {entries : List (κ × ν)}

/-- Replace the value of `key` where it stands, or add `key` at the end. -/
def insert (key : κ) (value : ν) : List (κ × ν) → List (κ × ν)
  | [] => [(key, value)]
  | (stored, old) :: rest =>
      if stored = key then (key, value) :: rest else (stored, old) :: insert key value rest

theorem insert_of_fresh (fresh : ∀ entry ∈ entries, entry.1 ≠ key) :
    insert key value entries = entries ++ [(key, value)] := by
  induction entries with
  | nil => rfl
  | cons entry rest ih =>
      have tail := ih (fun other member => fresh other (by simp [member]))
      simp [insert, fresh entry (by simp), tail]

theorem insert_of_stored {front back : List (κ × ν)} {old : ν}
    (fresh : ∀ entry ∈ front, entry.1 ≠ key) :
    insert key value (front ++ (key, old) :: back) = front ++ (key, value) :: back := by
  induction front with
  | nil => simp [insert]
  | cons entry front ih =>
      have tail := ih (fun other member => fresh other (by simp [member]))
      simp [insert, fresh entry (by simp), tail]

theorem keys_insert (key : κ) (value : ν) (entries : List (κ × ν)) :
    (insert key value entries).map Prod.fst =
      if key ∈ entries.map Prod.fst then entries.map Prod.fst else entries.map Prod.fst ++ [key] := by
  induction entries with
  | nil => simp [insert]
  | cons entry rest ih =>
      by_cases same : entry.1 = key
      · simp [insert, same]
      · have other : key ≠ entry.1 := Ne.symm same
        simp only [insert, if_neg same, List.map_cons, ih, List.mem_cons, other, false_or]
        split <;> rfl

theorem insert_distinct (key : κ) (value : ν) (distinct : (entries.map Prod.fst).Nodup) :
    ((insert key value entries).map Prod.fst).Nodup := by
  rw [keys_insert]
  split
  · exact distinct
  · rename_i fresh
    refine List.nodup_append.mpr ⟨distinct, by simp, ?_⟩
    intro stored member other last same
    rw [List.mem_singleton.mp last] at same
    exact fresh (same ▸ member)

theorem find?_insert_key [BEq κ] [LawfulBEq κ] (key : κ) (value : ν) (entries : List (κ × ν))
    (wanted : κ) :
    (insert key value entries).find? (fun entry => entry.1 == wanted) =
      if key = wanted then some (key, value) else entries.find? fun entry => entry.1 == wanted := by
  induction entries with
  | nil => by_cases here : key = wanted <;> simp [insert, here]
  | cons entry rest ih =>
      by_cases same : entry.1 = key
      · by_cases here : key = wanted <;> simp [insert, same, here]
      · by_cases here : entry.1 = wanted
        · have other : key ≠ wanted := fun again => same (here.trans again.symm)
          subst here
          simp [insert, same, other]
        · simp [insert, same, here, ih]

/-- Inserting a stored key changes what a search by keys finds only where it
finds that key. -/
theorem find?_insert (value : ν) (stored : key ∈ entries.map Prod.fst)
    (distinct : (entries.map Prod.fst).Nodup) (select : κ → Bool) :
    (insert key value entries).find? (fun entry => select entry.1) =
      (entries.find? fun entry => select entry.1).map fun entry =>
        if entry.1 = key then (key, value) else entry := by
  induction entries with
  | nil => simp at stored
  | cons entry rest ih =>
      obtain ⟨first, old⟩ := entry
      have firstAbsent := (List.nodup_cons.mp distinct).1
      by_cases same : first = key
      · subst same
        have later : ∀ other ∈ rest, other.1 ≠ first := fun other member again =>
          firstAbsent (List.mem_map.mpr ⟨other, member, again⟩)
        cases chosen : select first with
        | true => simp [insert, chosen]
        | false =>
            cases found : rest.find? fun entry => select entry.1 with
            | none => simp [insert, chosen, found]
            | some other =>
                simp [insert, chosen, found, later other (List.mem_of_find?_eq_some found)]
      · have inRest : key ∈ rest.map Prod.fst := by
          rcases List.mem_cons.mp stored with here | there
          · exact absurd here.symm same
          · exact there
        have tail := ih inRest (List.nodup_cons.mp distinct).2
        cases chosen : select first with
        | true => simp [insert, chosen, same]
        | false => simpa [insert, chosen, same] using tail

theorem filter_insert (select : κ → Bool) (key : κ) (value : ν) (entries : List (κ × ν)) :
    (insert key value entries).filter (fun entry => select entry.1) =
      if select key then insert key value (entries.filter fun entry => select entry.1)
      else entries.filter fun entry => select entry.1 := by
  induction entries with
  | nil => cases kept : select key <;> simp [insert, kept]
  | cons entry rest ih =>
      by_cases same : entry.1 = key
      · cases kept : select key <;> simp [insert, same, kept]
      · simp only [insert, if_neg same, List.filter_cons, ih]
        cases kept : select key <;> cases first : select entry.1 <;> simp [insert, same]

end ChaiBeast.Data.OrderedMap
