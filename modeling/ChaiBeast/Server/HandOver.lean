import Mathlib.Data.List.Range
import ChaiBeast.Server.AcceptChain

namespace ChaiBeast.Server

open Data.Transition

/-! Every accepted connection is carried by exactly one closure of the chain until
it is handed to the work callback or its handshake fails. -/

def Coroutine.connection : Coroutine → Option Nat
  | .accept | .accepting => none
  | .handshake conn _ | .handshaking conn | .work conn => some conn

namespace Chain

/-- The connection whose handshake or hand-over is in progress, if there is one. -/
def pending (chain : Chain) : List Nat :=
  chain.coroutines.filterMap Coroutine.connection

/-- The accepted connections without those whose handshake failed. -/
def admitted (chain : Chain) : List Nat :=
  (List.range chain.accepted).filter (· ∉ chain.failed)

structure Accounted (chain : Chain) : Prop where
  single : chain.Single
  failedAccepted : ∀ conn ∈ chain.failed, conn < chain.accepted
  served : chain.handed ++ chain.pending = chain.admitted

theorem Accounted.initial : ({} : Chain).Accounted :=
  ⟨Nat.le_refl 1, by simp, rfl⟩

variable {chain : Chain}

theorem admitted_nodup (chain : Chain) : chain.admitted.Nodup :=
  List.nodup_range.filter _

theorem admitted_accept (failedAccepted : ∀ conn ∈ chain.failed, conn < chain.accepted)
    (coroutines : List Coroutine) :
    ({ chain with coroutines, accepted := chain.accepted + 1 } : Chain).admitted =
      chain.admitted ++ [chain.accepted] := by
  have fresh : chain.accepted ∉ chain.failed :=
    fun member => Nat.lt_irrefl _ (failedAccepted _ member)
  simp [admitted, List.range_succ, fresh]

theorem admitted_fail {conn : Nat} (served : chain.handed ++ [conn] = chain.admitted)
    (coroutines : List Coroutine) :
    ({ chain with coroutines, failed := chain.failed ++ [conn] } : Chain).admitted = chain.handed := by
  have distinct := chain.admitted_nodup
  have others : ({ chain with coroutines, failed := chain.failed ++ [conn] } : Chain).admitted =
      chain.admitted.filter (· ≠ conn) := by
    simp only [admitted, List.filter_filter, List.mem_append, List.mem_singleton, not_or,
      Bool.decide_and, ne_eq]
    congr 1
    funext other
    rw [Bool.and_comm]
  rw [← served, List.nodup_append] at distinct
  have kept : chain.handed.filter (· ≠ conn) = chain.handed := by
    refine List.filter_eq_self.mpr fun other member => ?_
    simpa using distinct.2.2 other member conn (by simp)
  rw [others, ← served, List.filter_append, kept]
  simp

theorem Accounted.accept {coroutine : Coroutine} (accounted : chain.Accounted)
    (idle : chain.pending = []) (carries : coroutine.connection = some chain.accepted) :
    ({ chain with coroutines := [coroutine], accepted := chain.accepted + 1 } : Chain).Accounted := by
  refine ⟨Nat.le_refl 1, fun conn member => Nat.lt_succ_of_lt (accounted.failedAccepted conn member), ?_⟩
  have served := accounted.served
  rw [idle, List.append_nil] at served
  rw [admitted_accept accounted.failedAccepted, ← served]
  simp [pending, carries]

theorem Accounted.carry {coroutines : List Coroutine} (accounted : chain.Accounted)
    (single : coroutines.length ≤ 1)
    (same : coroutines.filterMap Coroutine.connection = chain.pending) :
    ({ chain with coroutines } : Chain).Accounted := by
  refine ⟨single, accounted.failedAccepted, ?_⟩
  rw [pending, same]
  exact accounted.served

theorem Accounted.fail {conn : Nat} (accounted : chain.Accounted) (carries : chain.pending = [conn]) :
    ({ chain with coroutines := [.accept], failed := chain.failed ++ [conn] } : Chain).Accounted := by
  have served := accounted.served
  rw [carries] at served
  have accepted : conn ∈ chain.admitted := by simp [← served]
  refine ⟨Nat.le_refl 1, ?_, ?_⟩
  · intro other member
    rw [List.mem_append, List.mem_singleton] at member
    rcases member with old | rfl
    · exact accounted.failedAccepted other old
    · exact List.mem_range.mp (List.mem_of_mem_filter accepted)
  · rw [admitted_fail served]
    exact List.append_nil _

theorem Accounted.hand {conn : Nat} (accounted : chain.Accounted) (carries : chain.pending = [conn]) :
    ({ chain with coroutines := [.accept], handed := chain.handed ++ [conn] } : Chain).Accounted := by
  have served := accounted.served
  rw [carries] at served
  refine ⟨Nat.le_refl 1, accounted.failedAccepted, ?_⟩
  exact (List.append_nil _).trans served

theorem Accounted.preserved {maker : StreamMaker} {next : Chain} {event : Event}
    (accounted : chain.Accounted) (taken : step maker chain event = some next) : next.Accounted := by
  obtain ⟨coroutine, only, resumed⟩ := accounted.single.step_cases taken
  have carried : chain.pending = [coroutine].filterMap Coroutine.connection := by
    rw [pending, only]
  generalize event.signal = signal at resumed
  match coroutine, signal with
  | .accept, .start =>
      cases resumed
      exact accounted.carry (Nat.le_refl 1) carried.symm
  | .accepting, .accepted none client =>
      cases resumed
      cases maker
      · exact accounted.accept carried rfl
      · exact accounted.accept carried rfl
  | .accepting, .accepted (some message) client =>
      cases resumed
      cases maker
      -- The exception ends the chain of a TCP server.
      · exact accounted.carry (Nat.zero_le 1) carried.symm
      · exact accounted.carry (Nat.le_refl 1) carried.symm
  | .handshake conn (.finished none), .start | .handshaking conn, .handshaken none =>
      cases resumed
      exact accounted.carry (Nat.le_refl 1) carried.symm
  | .handshake conn (.finished (some message)), .start
  | .handshaking conn, .handshaken (some message) =>
      cases resumed
      exact accounted.fail carried
  | .handshake conn .unfinished, .start | .handshake conn .unfinished, .handshaken outcome =>
      cases resumed
      exact accounted.carry (Nat.le_refl 1) carried.symm
  | .work conn, .start =>
      cases resumed
      exact accounted.hand carried

end Chain

end ChaiBeast.Server
