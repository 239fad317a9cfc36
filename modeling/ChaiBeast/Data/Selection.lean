import Mathlib.Data.List.Nodup
import Mathlib.Data.List.Perm.Basic

namespace ChaiBeast.Data.Selection

/-! Searching a collection whose order is not fixed. -/

variable {α : Type u} {κ : Type v} {ν : Type w} {entries order : List α} {select : α → Bool}

/-- Over all orders, the first element selected may be any selected one, and
nothing else. -/
theorem forall_order_find? {P : Option α → Prop} :
    (∀ order : List α, order.Perm entries → P (order.find? select)) ↔
      ((∀ entry ∈ entries, select entry = false) → P none) ∧
        ∀ entry ∈ entries, select entry → P (some entry) := by
  constructor
  · intro every
    refine ⟨?_, ?_⟩
    · intro unselected
      have here := every entries (.refl _)
      rwa [List.find?_eq_none.mpr (by simpa using unselected)] at here
    · intro entry member selected
      obtain ⟨front, back, rfl⟩ := List.append_of_mem member
      have ahead := every (entry :: (front ++ back)) List.perm_middle.symm
      rwa [List.find?_cons_of_pos selected] at ahead
  · intro both order shuffled
    obtain ⟨none, some⟩ := both
    cases found : order.find? select with
    | none =>
        refine none fun entry member => ?_
        simpa using List.find?_eq_none.mp found entry (shuffled.mem_iff.mpr member)
    | some entry =>
        exact some entry (shuffled.mem_iff.mp (List.mem_of_find?_eq_some found))
          (List.find?_some found)

theorem find?_eq_of_unique (shuffled : order.Perm entries)
    (unique : ∀ entry ∈ entries, ∀ other ∈ entries, select entry → select other → entry = other) :
    order.find? select = entries.find? select := by
  cases found : entries.find? select with
  | none =>
      refine List.find?_eq_none.mpr fun entry member => ?_
      exact List.find?_eq_none.mp found entry (shuffled.mem_iff.mp member)
  | some entry =>
      have member := List.mem_of_find?_eq_some found
      have selected := List.find?_some found
      cases again : order.find? select with
      | none =>
          exact absurd selected (List.find?_eq_none.mp again entry (shuffled.mem_iff.mpr member))
      | some other =>
          have otherMember := shuffled.mem_iff.mp (List.mem_of_find?_eq_some again)
          rw [unique entry member other otherMember selected (List.find?_some again)]

theorem find?_key_perm [BEq κ] [LawfulBEq κ] {entries order : List (κ × ν)}
    (shuffled : order.Perm entries) (distinct : (entries.map Prod.fst).Nodup) (key : κ) :
    (order.find? fun entry => entry.1 == key) = entries.find? fun entry => entry.1 == key := by
  refine find?_eq_of_unique shuffled fun entry member other otherMember here there => ?_
  refine List.inj_on_of_nodup_map distinct member otherMember ?_
  rw [eq_of_beq here, eq_of_beq there]

end ChaiBeast.Data.Selection
