import ChaiBeast.Proxy.AbstractForwarder
import ChaiBeast.Proxy.LoadedTable
import ChaiBeast.Server.Availability

namespace ChaiBeast.Proxy

open Data.Transition Http Routing Server

/-! The reverse proxy of reverseproxy.cpp: a server whose demultiplexer is the
`RequestForwarder` of the configuration. -/

structure ProxyServer (σ : Type) where
  router : RequestForwarder
  streamMaker : StreamMaker
  calls : StreamCalls σ
  outOfRange : CppString

variable {σ τ : Type}

namespace ProxyServer

def getForwarder (self : ProxyServer σ) (path : CppString) :
    Except Fault (Option AbstractForwarder) :=
  (self.router.getForwarder path).map (·.map Pointer.forwarder)

/-- What the handlers share is what is still to come from outside: each call of a
forwarder meets the next environment. -/
def demultiplexer (self : ProxyServer σ) (τ : Type) :
    Demultiplexer (Nat → Environment τ) AbstractForwarder where
  getForwarder := self.getForwarder
  forward forwarder req environments :=
    (forwarder.call (environments 0) req, fun i => environments (i + 1))

def server (self : ProxyServer σ) (τ : Type) :
    ServerSetup σ (Nat → Environment τ) AbstractForwarder where
  streamMaker := self.streamMaker
  calls := self.calls
  router := self.demultiplexer τ
  outOfRange := self.outOfRange

end ProxyServer

/-- Some of the environments have been met. -/
def Remaining (environments shared : Nat → Environment τ) : Prop :=
  ∃ met, ∀ i, shared i = environments (met + i)

theorem Remaining.refl (environments : Nat → Environment τ) : Remaining environments environments :=
  ⟨0, fun i => by rw [Nat.zero_add]⟩

namespace ProxyServer

variable {self : ProxyServer σ} {environments shared : Nat → Environment τ}

theorem outcome_eq (self : ProxyServer σ) (req : VariantRequest) (shared : Nat → Environment τ) :
    ((self.server τ).outcome (.ok req) shared).1 = (do
      match ← self.getForwarder req.target with
      | some forwarder => forwarder.call (shared 0) req
      | none => .error (.runtimeError "Suggested forwarder type is null".toList)) := by
  have router : (self.server τ).router.getForwarder = self.getForwarder := rfl
  simp only [ServerSetup.outcome, router]
  cases self.getForwarder req.target with
  | error fault => rfl
  | ok result => cases result <;> rfl

/-- Where the forwarder for what was read is flexible and comes to reading, it gets a
whole header. -/
def HeaderComes (self : ProxyServer σ) (received : Request × ErrorCode)
    (environment : Environment τ) : Prop :=
  received.2 = none → ∀ selected, self.getForwarder received.1.target = .ok selected →
    ∀ forwarder ∈ selected, forwarder.HeaderComes environment (.stringbody received.1)

instance (received : Request × ErrorCode) (environment : Environment τ) :
    Decidable (self.HeaderComes received environment) :=
  inferInstanceAs (Decidable (_ = _ → ∀ _, _ = _ → ∀ _ ∈ _, _))

theorem getForwarder_caught (self : ProxyServer σ) (path : CppString) :
    Caught (self.getForwarder path) := by
  have wildcard : Caught (self.router.wildCardMatch path) := by
    unfold RequestForwarder.wildCardMatch RequestForwarder.atKey
    dsimp only
    split
    · split
      · exact caught_ok _
      · exact caught_error.mpr rfl
    · exact caught_ok _
  refine Caught.map (wildcard.bind fun matched => ?_)
  cases matched with
  | some pointer => exact caught_ok _
  | none => cases self.router.table.find? (·.1 == path) <;> exact caught_ok _

theorem headerComes_of_selected {message : Request} {environment : Environment τ}
    {result : Option AbstractForwarder} (selected : self.getForwarder message.target = .ok result) :
    self.HeaderComes (message, none) environment ↔
      ∀ forwarder ∈ result, forwarder.HeaderComes environment (.stringbody message) := by
  constructor
  · exact fun comes => comes rfl result selected
  · intro comes _ other same
    cases selected.symm.trans same
    exact comes

/-- Answering a request is undefined only where a header does not come. -/
theorem outcome_cases {received : Request × ErrorCode}
    (connects : ∀ forwarder : AbstractForwarder, Caught (forwarder.beginStream (shared 0)))
    (writes : ∀ req stream, Caught ((shared 0).calls.write req stream)) :
    let answered := ((self.server τ).outcome (readRequest received) shared).1
    self.HeaderComes received (shared 0) ∧ Caught answered ∨
      ¬ self.HeaderComes received (shared 0) ∧ answered = .error .unreadHeader := by
  obtain ⟨message, ec⟩ := received
  cases ec with
  | some text => exact .inl ⟨nofun, caught_error.mpr rfl⟩
  | none =>
      intro answered
      have answers : answered = _ := self.outcome_eq (.stringbody message) shared
      have target : (VariantRequest.stringbody message).target = message.target := rfl
      have selecting := self.getForwarder_caught message.target
      rw [answers, target]
      cases selected : self.getForwarder message.target with
      | error fault =>
          rw [selected] at selecting
          refine .inl ⟨fun _ result same => ?_, caught_error.mpr (caught_error.mp selecting)⟩
          exact nomatch selected.symm.trans same
      | ok result =>
          rw [headerComes_of_selected selected, ok_bind]
          cases result with
          | none => exact .inl ⟨nofun, caught_error.mpr rfl⟩
          | some forwarder =>
              simp only [Option.mem_some_iff, forall_eq']
              exact forwarder.call_caught_or (connects forwarder) (writes _)

end ProxyServer

end ChaiBeast.Proxy
