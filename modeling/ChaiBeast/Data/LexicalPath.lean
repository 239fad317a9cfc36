import Mathlib.Data.List.Basic
import Mathlib.Data.List.Infix

namespace ChaiBeast.Data.LexicalPath

/-! Lexical resolution of `..` over arbitrary names.

A path without its root reduces to some number of steps up followed by names.
Reduction of a concatenation is the `join` of the reductions, so where a path
ends up below a directory only depends on the two normal forms. -/

variable {α : Type u}

inductive Component (α : Type u) where
  | parent
  | child (name : α)
deriving Repr, DecidableEq

/-- `ups` steps to the parent, then `names` downwards. -/
structure Normal (α : Type u) where
  ups : Nat
  names : List α
deriving Repr, DecidableEq

namespace Normal

def step (path : Normal α) : Component α → Normal α
  | .child name => ⟨path.ups, path.names ++ [name]⟩
  | .parent => if path.names.isEmpty then ⟨path.ups + 1, []⟩ else ⟨path.ups, path.names.dropLast⟩

def join (left right : Normal α) : Normal α :=
  ⟨left.ups + (right.ups - left.names.length),
    left.names.take (left.names.length - right.ups) ++ right.names⟩

@[simp] theorem join_empty (path : Normal α) : path.join ⟨0, []⟩ = path := by
  simp [join]

theorem join_step (left right : Normal α) (component : Component α) :
    (left.join right).step component = left.join (right.step component) := by
  obtain ⟨leftUps, leftNames⟩ := left
  obtain ⟨ups, names⟩ := right
  cases component with
  | child name => simp [step, join]
  | parent =>
      by_cases empty : names = []
      · subst empty
        by_cases inside : ups < leftNames.length
        · have kept : leftNames.take (leftNames.length - ups) ≠ [] := by
            apply List.ne_nil_of_length_pos
            rw [List.length_take]
            omega
          have noUps : ups - leftNames.length = 0 ∧ ups + 1 - leftNames.length = 0 := by omega
          have shorter : (leftNames.take (leftNames.length - ups)).dropLast =
              leftNames.take (leftNames.length - (ups + 1)) := by
            rw [List.dropLast_eq_take, List.take_take, List.length_take]
            congr 1
            omega
          simp only [step, join, List.append_nil, List.isEmpty_nil, if_true, noUps.1, noUps.2,
            List.isEmpty_iff, if_neg kept, shorter]
        · have none : leftNames.length - ups = 0 ∧ leftNames.length - (ups + 1) = 0 := by omega
          simp only [step, join, List.append_nil, List.isEmpty_nil, if_true, none.1, none.2,
            List.take_zero]
          congr 1
          omega
      · have some : leftNames.take (leftNames.length - ups) ++ names ≠ [] := by simp [empty]
        simp only [step, join, List.isEmpty_iff, if_neg some, if_neg empty]
        rw [List.dropLast_append_of_ne_nil empty]

end Normal

def normalize (path : List (Component α)) : Normal α :=
  path.foldl Normal.step ⟨0, []⟩

@[simp] theorem normalize_nil : normalize ([] : List (Component α)) = ⟨0, []⟩ := rfl

@[simp] theorem normalize_parent : normalize [(.parent : Component α)] = ⟨1, []⟩ := rfl

@[simp] theorem normalize_child (name : α) : normalize [.child name] = ⟨0, [name]⟩ := rfl

theorem normalize_append (left right : List (Component α)) :
    normalize (left ++ right) = (normalize left).join (normalize right) := by
  induction right using List.reverseRecOn with
  | nil => simp [normalize]
  | append_singleton right component ih =>
      have more : normalize (right ++ [component]) = (normalize right).step component := by
        simp [normalize]
      rw [more, ← Normal.join_step, ← ih]
      simp [normalize]

theorem normalize_children (names : List α) :
    normalize (names.map Component.child) = ⟨0, names⟩ := by
  induction names using List.reverseRecOn with
  | nil => rfl
  | append_singleton names name ih =>
      rw [List.map_append, normalize_append, ih]
      simp [normalize, Normal.join, Normal.step]

/-- `path` lies in a proper subdirectory of `root`.  From a file system root,
steps above it are no steps at all. -/
def StrictlyBelow (rooted : Bool) (root path : Normal α) : Prop :=
  root.names <+: path.names ∧ root.names.length < path.names.length ∧
    (rooted = true ∨ path.ups = root.ups)

instance [DecidableEq α] (rooted : Bool) (root path : Normal α) :
    Decidable (StrictlyBelow rooted root path) :=
  inferInstanceAs (Decidable (_ ∧ _))

/-- A path continued from a directory stays strictly below it exactly when it
comes back down into every directory it left, and then goes further. -/
theorem strictlyBelow_join_iff (rooted : Bool) (names : List α) (inner : Normal α) :
    StrictlyBelow rooted ⟨0, names⟩ (Normal.join ⟨0, names⟩ inner) ↔
      names.drop (names.length - inner.ups) <+: inner.names ∧
        min inner.ups names.length < inner.names.length ∧
        (rooted = true ∨ inner.ups ≤ names.length) := by
  have cut : names <+: names.take (names.length - inner.ups) ++ inner.names ↔
      names.drop (names.length - inner.ups) <+: inner.names := by
    conv => lhs; lhs; rw [← List.take_append_drop (names.length - inner.ups) names]
    exact List.prefix_append_right_inj _
  simp only [StrictlyBelow, Normal.join, cut, List.length_append, List.length_take]
  refine and_congr_right fun _ => and_congr ?_ (or_congr_right ?_) <;> omega

/-- `path` lies in `root` itself, in none of its subdirectories. -/
def DirectlyIn (rooted : Bool) (root path : Normal α) : Prop :=
  path.names ≠ [] ∧ path.names.dropLast = root.names ∧ (rooted = true ∨ path.ups = root.ups)

instance [DecidableEq α] (rooted : Bool) (root path : Normal α) :
    Decidable (DirectlyIn rooted root path) :=
  inferInstanceAs (Decidable (_ ∧ _))

/-- A path continued from a directory names something in it exactly when it
comes back down into every directory it left, and then takes one step. -/
theorem directlyIn_join_iff (rooted : Bool) (names : List α) (inner : Normal α) :
    DirectlyIn rooted ⟨0, names⟩ (Normal.join ⟨0, names⟩ inner) ↔
      inner.names ≠ [] ∧ inner.names.dropLast = names.drop (names.length - inner.ups) ∧
        (rooted = true ∨ inner.ups ≤ names.length) := by
  have above : (0 + (inner.ups - names.length) = 0) = (inner.ups ≤ names.length) := by
    rw [Nat.zero_add, Nat.sub_eq_zero_iff_le]
  by_cases empty : inner.names = []
  · have shorter : names.take (names.length - inner.ups) ≠ [] →
        (names.take (names.length - inner.ups)).dropLast ≠ names := by
      intro nonempty whole
      have positive := List.length_pos_iff.mpr nonempty
      have length := congrArg List.length whole
      rw [List.length_dropLast, List.length_take] at length
      rw [List.length_take] at positive
      omega
    simp only [DirectlyIn, Normal.join, empty, List.append_nil]
    exact iff_of_false (fun inside => shorter inside.1 inside.2.1) (fun inside => inside.1 rfl)
  · have cut : names.take (names.length - inner.ups) ++ inner.names.dropLast = names ↔
        inner.names.dropLast = names.drop (names.length - inner.ups) := by
      conv => lhs; rhs; rw [← List.take_append_drop (names.length - inner.ups) names]
      exact List.append_right_inj _
    simp only [DirectlyIn, Normal.join, List.dropLast_append_of_ne_nil empty, cut, above]
    simp [empty]

end ChaiBeast.Data.LexicalPath
