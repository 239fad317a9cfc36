namespace ChaiBeast.Data

/-! Senders over a state: work that completes on one of three channels.  Each
adaptor continues on one channel and hands the completions of the other two on,
and the rules below say the same of preconditions and postconditions. -/

inductive Completion (ε : Type u) (α : Type v) where
  | value (a : α)
  | error (e : ε)
  | stopped
deriving Repr, DecidableEq

def Completion.ofExcept : Except ε α → Completion ε α
  | .ok a => .value a
  | .error e => .error e

def Completion.value? : Completion ε α → Option α
  | .value a => some a
  | .error _ | .stopped => none

def Completion.error? : Completion ε α → Option ε
  | .error e => some e
  | .value _ | .stopped => none

def Sender (σ : Type u) (ε : Type v) (α : Type w) := σ → Completion ε α × σ

namespace Sender

variable {σ : Type u} {ε : Type v} {α : Type w} {β : Type x}

/-- A sender that completes at once. -/
def completed (completion : Completion ε α) : Sender σ ε α := fun state => (completion, state)

def just (a : α) : Sender σ ε α := completed (.value a)

def letValue (sender : Sender σ ε α) (next : α → Sender σ ε β) : Sender σ ε β := fun state =>
  match sender state with
  | (.value a, state) => next a state
  | (.error e, state) => (.error e, state)
  | (.stopped, state) => (.stopped, state)

def letError (sender : Sender σ ε α) (next : ε → Sender σ ε α) : Sender σ ε α := fun state =>
  match sender state with
  | (.value a, state) => (.value a, state)
  | (.error e, state) => next e state
  | (.stopped, state) => (.stopped, state)

/-- A call in a sender: what it throws completes with an error. -/
def invoke (f : α → σ → Except ε β × σ) (a : α) : Sender σ ε β := fun state =>
  (.ofExcept (f a state).1, (f a state).2)

def andThen (sender : Sender σ ε α) (f : α → σ → Except ε β × σ) : Sender σ ε β :=
  sender.letValue (invoke f)

/-- An adaptor sees of a sender only its completion and the state it leaves. -/
theorem letError_completed (sender : Sender σ ε α) (next : ε → Sender σ ε α) (state : σ) :
    sender.letError next state = (completed (sender state).1).letError next (sender state).2 := rfl

theorem andThen_completed (sender : Sender σ ε α) (f : α → σ → Except ε β × σ) (state : σ) :
    sender.andThen f state = (completed (sender state).1).andThen f (sender state).2 := rfl

/-- A postcondition for each channel. -/
structure Post (σ : Type u) (ε : Type v) (α : Type w) where
  value : α → σ → Prop
  error : ε → σ → Prop
  stopped : σ → Prop

def Post.Holds (post : Post σ ε α) : Completion ε α × σ → Prop
  | (.value a, state) => post.value a state
  | (.error e, state) => post.error e state
  | (.stopped, state) => post.stopped state

def Triple (before : σ → Prop) (sender : Sender σ ε α) (post : Post σ ε α) : Prop :=
  ∀ state, before state → post.Holds (sender state)

section Rules

variable {before : σ → Prop} {sender : Sender σ ε α} {value : α → σ → Prop} {error : ε → σ → Prop}
  {stopped : σ → Prop}

theorem Triple.weaken {post : Post σ ε α} (strong : Triple before sender post) (weaker : Post σ ε α)
    (value : ∀ a state, post.value a state → weaker.value a state)
    (error : ∀ e state, post.error e state → weaker.error e state)
    (stopped : ∀ state, post.stopped state → weaker.stopped state) :
    Triple before sender weaker := by
  intro state holds
  have done := strong state holds
  generalize sender state = result at done ⊢
  match result with
  | (.value a, after) => exact value a after done
  | (.error e, after) => exact error e after done
  | (.stopped, after) => exact stopped after done

theorem Triple.just {a : α} (value : α → σ → Prop) (holds : ∀ state, before state → value a state) :
    Triple before (just a) ⟨value, error, stopped⟩ :=
  holds

theorem Triple.letValue {next : α → Sender σ ε β} {result : β → σ → Prop}
    (first : Triple before sender ⟨value, error, stopped⟩)
    (rest : ∀ a, Triple (value a) (next a) ⟨result, error, stopped⟩) :
    Triple before (sender.letValue next) ⟨result, error, stopped⟩ := by
  intro state holds
  have done := first state holds
  unfold Sender.letValue
  split
  case h_1 completes => rw [completes] at done; exact rest _ _ done
  case h_2 completes => rw [completes] at done; exact done
  case h_3 completes => rw [completes] at done; exact done

theorem Triple.letError {next : ε → Sender σ ε α} {failure : ε → σ → Prop}
    (first : Triple before sender ⟨value, error, stopped⟩)
    (rest : ∀ e, Triple (error e) (next e) ⟨value, failure, stopped⟩) :
    Triple before (sender.letError next) ⟨value, failure, stopped⟩ := by
  intro state holds
  have done := first state holds
  unfold Sender.letError
  split
  case h_1 completes => rw [completes] at done; exact done
  case h_2 completes => rw [completes] at done; exact rest _ _ done
  case h_3 completes => rw [completes] at done; exact done

theorem Triple.andThen {f : α → σ → Except ε β × σ} {result : β → σ → Prop}
    (first : Triple before sender ⟨value, error, stopped⟩)
    (call : ∀ a state, value a state →
      Post.Holds ⟨result, error, stopped⟩ (.ofExcept (f a state).1, (f a state).2)) :
    Triple before (sender.andThen f) ⟨result, error, stopped⟩ :=
  first.letValue call

/-- A postcondition that is the same on every channel speaks of the state alone. -/
theorem triple_uniform_iff {after : σ → Prop} :
    Triple before sender ⟨fun _ => after, fun _ => after, after⟩ ↔
      ∀ state, before state → after (sender state).2 := by
  refine forall₂_congr fun state _ => ?_
  generalize sender state = result
  match result with
  | (.value _, _) | (.error _, _) | (.stopped, _) => exact Iff.rfl

end Rules

end Sender

end ChaiBeast.Data
