import Mathlib.Data.Fintype.Basic

namespace ChaiBeast.Data.Ownership

/-! Clients that work on shared, named cells.  A client holds at most one cell
at a time, and while nobody else holds it the client's own steps decide what it
finds there. -/

structure World (ι : Type u) (κ : Type v) (ν : Type w) (τ : Type x) where
  cells : κ → ν
  clients : ι → τ

namespace World

variable {ι : Type u} {κ : Type v} {ν : Type w} {τ : Type x} [DecidableEq ι] [DecidableEq κ]

def move (world : World ι κ ν τ) (i : ι) (next : τ) : World ι κ ν τ :=
  { world with clients := Function.update world.clients i next }

def store (world : World ι κ ν τ) (i : ι) (next : τ) (key : κ) (cell : ν) : World ι κ ν τ :=
  { cells := Function.update world.cells key cell, clients := Function.update world.clients i next }

theorem store_same (world : World ι κ ν τ) (i : ι) (next : τ) (key : κ) :
    world.store i next key (world.cells key) = world.move i next := by
  rw [store, Function.update_eq_self, move]

end World

section

variable {ι : Type u} {κ : Type v} {ν : Type w} {τ : Type x} (holds : τ → Option κ)

def Free (world : World ι κ ν τ) (i : ι) (key : κ) : Prop :=
  ∀ j, j ≠ i → holds (world.clients j) ≠ some key

instance [Fintype ι] [DecidableEq ι] [DecidableEq κ] (world : World ι κ ν τ) (i : ι) (key : κ) :
    Decidable (Free holds world i key) :=
  inferInstanceAs (Decidable (∀ j, j ≠ i → holds (world.clients j) ≠ some key))

/-- Every client is in order with the cell it holds, and holds it alone. -/
structure Sound (valid : ι → τ → Option ν → Prop) (world : World ι κ ν τ) : Prop where
  valid : ∀ i, valid i (world.clients i) ((holds (world.clients i)).map world.cells)
  alone : ∀ i key, holds (world.clients i) = some key → Free holds world i key

end

namespace Sound

variable {ι : Type u} {κ : Type v} {ν : Type w} {τ : Type x} [DecidableEq ι] [DecidableEq κ]
  {holds : τ → Option κ} {valid : ι → τ → Option ν → Prop} {world : World ι κ ν τ}
  {i : ι} {next : τ} {key : κ}

/-- Writing a cell that no other client holds keeps every client in order, if
it keeps the writer so. -/
theorem store (sound : Sound holds valid world) (free : Free holds world i key) {cell : ν}
    (own : valid i next ((holds next).map fun _ => cell))
    (confined : ∀ other, holds next = some other → other = key) :
    Sound holds valid (world.store i next key cell) := by
  have at_i : (world.store i next key cell).clients i = next := Function.update_self ..
  have elsewhere : ∀ j, j ≠ i → (world.store i next key cell).clients j = world.clients j :=
    fun j other => Function.update_of_ne other ..
  refine ⟨?_, ?_⟩
  · intro j
    by_cases same : j = i
    · subst same
      rw [at_i]
      cases held : holds next with
      | none => simpa [held] using own
      | some other =>
          obtain rfl := confined other held
          simpa [held, World.store] using own
    · rw [elsewhere j same]
      cases held : holds (world.clients j) with
      | none => simpa [held] using sound.valid j
      | some other =>
          have distinct : other ≠ key := fun equal => free j same (equal ▸ held)
          simpa [held, World.store, Function.update_of_ne distinct] using sound.valid j
  · intro j other held k apart
    by_cases jSame : j = i
    · subst jSame
      rw [at_i] at held
      obtain rfl := confined other held
      rw [elsewhere k apart]
      exact free k apart
    · rw [elsewhere j jSame] at held
      by_cases kSame : k = i
      · subst kSame
        rw [at_i]
        intro taken
        obtain rfl := confined other taken
        exact free j jSame held
      · rw [elsewhere k kSame]
        exact sound.alone j other held k apart

theorem move (sound : Sound holds valid world) (held : holds (world.clients i) = some key)
    (own : valid i next ((holds next).map world.cells))
    (confined : ∀ other, holds next = some other → other = key) :
    Sound holds valid (world.move i next) := by
  rw [← World.store_same world i next key]
  refine sound.store (sound.alone i key held) ?_ confined
  cases keeps : holds next with
  | none => simpa [keeps] using own
  | some other =>
      obtain rfl := confined other keeps
      simpa [keeps] using own

end Sound

end ChaiBeast.Data.Ownership
