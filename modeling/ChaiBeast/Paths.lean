import ChaiBeast.Data.LexicalPath
import ChaiBeast.Strings

namespace ChaiBeast

open ChaiBeast.Data.LexicalPath

/-! File path strings read component by component. -/

/-- Empty components and `.` name no step. -/
def component (piece : CppString) : Option (Component CppString) :=
  if piece = [] ∨ piece = ['.'] then none
  else if piece = ['.', '.'] then some .parent
  else some (.child piece)

def components (path : CppString) : List (Component CppString) :=
  (path.splitOn '/').filterMap component

def isRooted (path : CppString) : Bool := path.head? == some '/'

def PathBelow (root path : CppString) : Prop :=
  isRooted path = isRooted root ∧
    StrictlyBelow (isRooted root) (normalize (components root)) (normalize (components path))

instance (root path : CppString) : Decidable (PathBelow root path) :=
  inferInstanceAs (Decidable (_ ∧ _))

def PathDirectlyIn (root path : CppString) : Prop :=
  isRooted path = isRooted root ∧
    DirectlyIn (isRooted root) (normalize (components root)) (normalize (components path))

instance (root path : CppString) : Decidable (PathDirectlyIn root path) :=
  inferInstanceAs (Decidable (_ ∧ _))

/-- A directory path that ends in a slash and has no dot component. -/
structure RootPath where
  text : CppString
  slash : text.getLast? = some '/'
  plain : ∀ piece ∈ text.splitOn '/', piece ≠ ['.'] ∧ piece ≠ ['.', '.']
  noNul : '\x00' ∉ text

namespace RootPath

variable (root : RootPath)

def names : List CppString := (root.text.splitOn '/').filter fun piece => !piece.isEmpty

theorem components_text : components root.text = root.names.map Component.child := by
  have plain := root.plain
  unfold components names
  generalize root.text.splitOn '/' = pieces at plain ⊢
  induction pieces with
  | nil => rfl
  | cons piece rest ih =>
      have here := plain piece (by simp)
      have tail := ih fun other member => plain other (by simp [member])
      by_cases empty : piece = []
      · simpa [component, empty] using tail
      · simpa [component, empty, here.1, here.2] using tail

theorem normalize_text : normalize (components root.text) = ⟨0, root.names⟩ := by
  rw [components_text, normalize_children]

theorem components_append (file : CppString) :
    components (root.text ++ file) = components root.text ++ components file := by
  obtain ⟨front, shape⟩ : ∃ front, root.text = front ++ ['/'] :=
    List.getLast?_eq_some_iff.mp root.slash
  have joined : front ++ ['/'] ++ file = front ++ '/' :: file := by simp
  have closed : front ++ ['/'] = front ++ '/' :: [] := rfl
  rw [shape, joined]
  unfold components
  rw [List.splitOn_append_cons_self, closed, List.splitOn_append_cons_self]
  simp [component]

/-- The file reduces to steps up that it takes back, and at least one more
name. -/
def Returns (file : CppString) : Prop :=
  let inner := normalize (components file)
  root.names.drop (root.names.length - inner.ups) <+: inner.names ∧
    min inner.ups root.names.length < inner.names.length ∧
    (isRooted root.text = true ∨ inner.ups ≤ root.names.length)

instance (file : CppString) : Decidable (root.Returns file) :=
  inferInstanceAs (Decidable (_ ∧ _))

theorem isRooted_append (file : CppString) : isRooted (root.text ++ file) = isRooted root.text := by
  have nonempty : root.text ≠ [] := fun empty => by simpa [empty] using root.slash
  rw [isRooted, List.head?_append_of_ne_nil _ nonempty, isRooted]

theorem pathBelow_append_iff (file : CppString) :
    PathBelow root.text (root.text ++ file) ↔ root.Returns file := by
  unfold PathBelow Returns
  rw [components_append, normalize_append, normalize_text, strictlyBelow_join_iff]
  simp [root.isRooted_append]

/-- Of the names without a slash, all but the empty one and the two dot names
stay in the directory. -/
theorem pathDirectlyIn_append_iff {name : CppString} (clear : '/' ∉ name) :
    PathDirectlyIn root.text (root.text ++ name) ↔ name ≠ [] ∧ name ≠ ['.'] ∧ name ≠ ['.', '.'] := by
  unfold PathDirectlyIn
  rw [components_append, normalize_append, normalize_text, directlyIn_join_iff, root.isRooted_append]
  have single : components name = (component name).toList := by
    rw [components, List.splitOn_eq_singleton clear]
    cases step : component name <;> simp [step]
  rw [single]
  by_cases empty : name = []
  · simp [empty, component]
  by_cases dot : name = ['.']
  · simp [dot, component]
  by_cases parent : name = ['.', '.']
  · simp [parent, component]
  · simp [component, empty, dot, parent]

end RootPath

end ChaiBeast
