import Mathlib.Data.List.Nodup
import ChaiBeast.Data.Transition

namespace ChaiBeast.Data.Transition

/-! Runs whose events belong to agents.  Events that commute may change places,
so a run in which only a few events of different agents depend on each other
comes to the same as one in which the agents act one after the other. -/

variable {σ : Type u} {ε : Type v} {ι : Type w} {step : σ → ε → Option σ} {start last : σ}
  {events : List ε}

def Commutes (step : σ → ε → Option σ) (first second : ε) : Prop :=
  ∀ state, (step state first).bind (step · second) = (step state second).bind (step · first)

theorem run_append (front back : List ε) :
    run step start (front ++ back) = (run step start front).bind fun middle => run step middle back := by
  induction front generalizing start with
  | nil => rfl
  | cons event front ih =>
      simp only [List.cons_append, run, Option.bind_assoc]
      exact Option.bind_congr fun next _ => ih

theorem run_move_back {event : ε} {middle : List ε} (back : List ε)
    (commutes : ∀ other ∈ middle, Commutes step event other) :
    run step start (event :: (middle ++ back)) = run step start (middle ++ event :: back) := by
  induction middle generalizing start with
  | nil => rfl
  | cons other middle ih =>
      have swapped := commutes other (by simp) start
      have rest := fun next => @ih next fun later member => commutes later (by simp [member])
      calc run step start (event :: (other :: middle ++ back))
        _ = ((step start event).bind (step · other)).bind (run step · (middle ++ back)) := by
            simp only [List.cons_append, run, Option.bind_assoc]
        _ = ((step start other).bind (step · event)).bind (run step · (middle ++ back)) := by
            rw [swapped]
        _ = run step start (other :: middle ++ event :: back) := by
            simp only [List.cons_append, run, Option.bind_assoc, ← rest]

/-- The selected events may come first, if each commutes with the others that
stand before it. -/
theorem run_partition {select : ε → Bool}
    (apart : events.Pairwise fun first later =>
      select first = false → select later = true → Commutes step first later) :
    run step start events =
      run step start (events.filter select ++ events.filter fun event => !select event) := by
  induction events generalizing start with
  | nil => rfl
  | cons event rest ih =>
      obtain ⟨here, later⟩ := List.pairwise_cons.mp apart
      have regrouped : run step start (event :: rest) = run step start
          (event :: (rest.filter select ++ rest.filter fun event => !select event)) := by
        simp only [run, ih later]
      rw [regrouped]
      cases selected : select event with
      | true => simp [selected]
      | false =>
          have commutes : ∀ other ∈ rest.filter select, Commutes step event other := by
            intro other member
            obtain ⟨inRest, chosen⟩ := List.mem_filter.mp member
            exact here other inRest selected chosen
          rw [run_move_back _ commutes]
          simp [selected]

variable [DecidableEq ι] (agent : ε → ι)

/-- A run may be regrouped agent by agent, if its events commute wherever the
agent of the later one comes first. -/
theorem run_grouped {order : List ι} (distinct : order.Nodup)
    (covered : ∀ event ∈ events, agent event ∈ order)
    (apart : events.Pairwise fun first later =>
      order.idxOf (agent later) < order.idxOf (agent first) → Commutes step first later) :
    run step start events =
      run step start (order.flatMap fun i => events.filter fun event => agent event = i) := by
  induction order generalizing start events with
  | nil =>
      have none : events = [] := List.eq_nil_iff_forall_not_mem.mpr fun event member => by
        simpa using covered event member
      simp [none]
  | cons i order ih =>
      obtain ⟨absent, distinct⟩ := List.nodup_cons.mp distinct
      have first : events.Pairwise fun first later =>
          decide (agent first = i) = false → decide (agent later = i) = true →
            Commutes step first later := by
        refine apart.imp fun {first later} commutes other mine => commutes ?_
        simp only [decide_eq_false_iff_not] at other
        simp only [decide_eq_true_eq] at mine
        rw [List.idxOf_cons_ne _ (Ne.symm other), mine, List.idxOf_cons_self]
        exact Nat.succ_pos _
      rw [run_partition first, List.flatMap_cons, run_append, run_append]
      refine Option.bind_congr fun middle _ => ?_
      have others : ∀ event ∈ events.filter (fun event => !decide (agent event = i)),
          event ∈ events ∧ agent event ≠ i := by
        intro event member
        simpa using List.mem_filter.mp member
      rw [ih distinct]
      · congr 1
        refine List.flatMap_congr fun j member => ?_
        have different : j ≠ i := fun same => absent (same ▸ member)
        rw [List.filter_filter]
        refine List.filter_congr fun event _ => ?_
        by_cases here : agent event = j <;> simp [here, different]
      · intro event member
        obtain ⟨inEvents, other⟩ := others event member
        exact (List.mem_cons.mp (covered event inEvents)).resolve_left other
      · refine (apart.sublist List.filter_sublist).imp_of_mem fun {first later} mf ml commutes before => ?_
        refine commutes ?_
        rw [List.idxOf_cons_ne _ (Ne.symm (others first mf).2),
          List.idxOf_cons_ne _ (Ne.symm (others later ml).2)]
        exact Nat.succ_lt_succ before

end ChaiBeast.Data.Transition
