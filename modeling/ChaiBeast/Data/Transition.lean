namespace ChaiBeast.Data.Transition

/-! Runs of a partial transition function over a list of events, and the rules
that carry a property from single steps to every state a run reaches. -/

variable {σ : Type u} {ε : Type v} {step : σ → ε → Option σ} {start last : σ} {events : List ε}

def run (step : σ → ε → Option σ) : σ → List ε → Option σ
  | state, [] => some state
  | state, event :: rest => (step state event).bind fun next => run step next rest

/-- `P` holds in every state that the events lead through, `start` included. -/
def Always (step : σ → ε → Option σ) (P : σ → Prop) (start : σ) (events : List ε) : Prop :=
  ∀ front back, events = front ++ back → ∀ reached, run step start front = some reached → P reached

/-- Every event that the run executes is allowed in the state it meets. -/
def Obeys (step : σ → ε → Option σ) (allowed : σ → ε → Prop) : σ → List ε → Prop
  | _, [] => True
  | state, event :: rest =>
      ∀ next, step state event = some next → allowed state event ∧ Obeys step allowed next rest

theorem run_cons_inv {event : ε} {rest : List ε} (ran : run step start (event :: rest) = some last) :
    ∃ next, step start event = some next ∧ run step next rest = some last :=
  Option.bind_eq_some_iff.mp ran

theorem always_nil {P : σ → Prop} : Always step P start [] ↔ P start := by
  constructor
  · exact fun always => always [] [] rfl start rfl
  · intro holds front back split reached ran
    obtain ⟨rfl, -⟩ := List.append_eq_nil_iff.mp split.symm
    cases ran
    exact holds

theorem always_cons {P : σ → Prop} {event : ε} {rest : List ε} :
    Always step P start (event :: rest) ↔
      P start ∧ ∀ next, step start event = some next → Always step P next rest := by
  constructor
  · intro always
    refine ⟨always [] _ rfl start rfl, fun next taken front back split reached ran => ?_⟩
    exact always (event :: front) back (by rw [split, List.cons_append]) reached (by
      rw [run, taken, Option.bind_some, ran])
  · intro both front back split reached ran
    obtain ⟨holds, later⟩ := both
    cases front with
    | nil => cases ran; exact holds
    | cons first front =>
        obtain ⟨rfl, tails⟩ := List.cons_eq_cons.mp split
        obtain ⟨next, taken, ran⟩ := run_cons_inv ran
        exact later next taken front back tails reached ran

theorem Always.imp {P Q : σ → Prop} (always : Always step P start events)
    (implies : ∀ state, P state → Q state) : Always step Q start events :=
  fun front back split reached ran => implies reached (always front back split reached ran)

theorem not_always_of_any {P : σ → Prop} [DecidablePred P]
    (fails : (run step start events).any fun last => !decide (P last)) :
    ¬ Always step P start events := by
  intro always
  obtain ⟨last, ran, violated⟩ := (Option.any_eq_true _ _).mp fails
  have holds := always events [] (List.append_nil _).symm last ran
  simp [holds] at violated

theorem always_of_keeps {P : σ → Prop} {allowed : σ → ε → Prop}
    (keeps : ∀ state event next,
      P state → allowed state event → step state event = some next → P next)
    (holds : P start) (obeys : Obeys step allowed start events) : Always step P start events := by
  induction events generalizing start with
  | nil => exact always_nil.mpr holds
  | cons event rest ih =>
      refine always_cons.mpr ⟨holds, fun next taken => ?_⟩
      obtain ⟨permitted, obeys⟩ := obeys next taken
      exact ih (keeps start event next holds permitted taken) obeys

theorem always_of_invariant {Inv P : σ → Prop}
    (keeps : ∀ state event next, Inv state → step state event = some next → Inv next)
    (implies : ∀ state, Inv state → P state) (inv : Inv start) : Always step P start events := by
  induction events generalizing start with
  | nil => exact always_nil.mpr (implies start inv)
  | cons event rest ih =>
      exact always_cons.mpr ⟨implies start inv, fun next taken => ih (keeps start event next inv taken)⟩

/-- Where every single step is judged correctly under an invariant, so is every
run: the property survives it exactly when each executed event is allowed. -/
theorem always_iff_obeys {Inv P : σ → Prop} {allowed : σ → ε → Prop}
    (keeps : ∀ state event next, Inv state → step state event = some next → Inv next)
    (judges : ∀ state event next, Inv state → P state → step state event = some next →
      (P next ↔ allowed state event))
    (inv : Inv start) (holds : P start) :
    Always step P start events ↔ Obeys step allowed start events := by
  induction events generalizing start with
  | nil => simp [always_nil, Obeys, holds]
  | cons event rest ih =>
      rw [always_cons, Obeys, and_iff_right holds]
      refine forall₂_congr fun next taken => ?_
      have judged := judges start event next inv holds taken
      have kept := keeps start event next inv taken
      constructor
      · intro always
        have reached : P next := always [] rest rfl next rfl
        exact ⟨judged.mp reached, (ih kept reached).mp always⟩
      · intro both
        obtain ⟨permitted, obeys⟩ := both
        exact (ih kept (judged.mpr permitted)).mpr obeys

/-- Where every step is one of an abstract system on what is observed of its
event, or leaves the abstract state alone, so is every run. -/
theorem run_simulates {τ : Type w} {δ : Type x} {abstractStep : τ → δ → Option τ}
    {observe : ε → Option δ} (abs : σ → τ) (Inv : σ → Prop)
    (keeps : ∀ state event next, Inv state → step state event = some next → Inv next)
    (simulates : ∀ state event next, Inv state → step state event = some next →
      (observe event).elim (some (abs state)) (abstractStep (abs state)) = some (abs next))
    (inv : Inv start) (ran : run step start events = some last) :
    run abstractStep (abs start) (events.filterMap observe) = some (abs last) := by
  induction events generalizing start with
  | nil => cases ran; rfl
  | cons event rest ih =>
      obtain ⟨next, taken, ran⟩ := run_cons_inv ran
      have simulated := simulates start event next inv taken
      have later := ih (keeps start event next inv taken) ran
      cases seen : observe event with
      | none =>
          rw [seen, Option.elim_none, Option.some.injEq] at simulated
          rw [List.filterMap_cons_none seen, simulated, later]
      | some observed =>
          rw [seen, Option.elim_some] at simulated
          rw [List.filterMap_cons_some seen, run, simulated, Option.bind_some, later]

theorem obeys_iff_forall {good : ε → Prop} (ran : run step start events = some last) :
    Obeys step (fun _ event => good event) start events ↔ ∀ event ∈ events, good event := by
  induction events generalizing start with
  | nil => simp [Obeys]
  | cons event rest ih =>
      obtain ⟨next, taken, ran⟩ := run_cons_inv ran
      simp [Obeys, taken, ih ran]

instance decidableObeys {allowed : σ → ε → Prop} [∀ state event, Decidable (allowed state event)] :
    ∀ start events, Decidable (Obeys step allowed start events)
  | _, [] => isTrue trivial
  | state, event :: rest =>
      match taken : step state event with
      | none => isTrue fun _ reached => nomatch taken.symm.trans reached
      | some next =>
          have : Decidable (Obeys step allowed next rest) := decidableObeys next rest
          decidable_of_iff (allowed state event ∧ Obeys step allowed next rest)
            ⟨fun both _ reached => Option.some.inj (taken.symm.trans reached) ▸ both,
              fun obeys => obeys next taken⟩

end ChaiBeast.Data.Transition
