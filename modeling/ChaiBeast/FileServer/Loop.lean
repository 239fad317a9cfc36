import Mathlib.Data.List.Forall2
import ChaiBeast.Data.Transition
import ChaiBeast.FileServer.Resolution

namespace ChaiBeast.FileServer

open Data.Transition Http

/-! The loop of `main` in fileserver.cpp over any number of clients.  A stream is
owned by a pointer whose deleter shuts it down and closes it, however the round
is left. -/

/-- What the network and the file system do in one round.  A call that fails
throws its error code, which leaves the `try` block. -/
structure Round where
  accept : ErrorCode := none
  handshake : ErrorCode := none
  read : Request × ErrorCode
  openScan : CppString → FileBody × ErrorCode
  write : ErrorCode := none
  close : ErrorCode := none

inductive StreamCall where
  | handshake
  | read
  | write (resp : VariantResponse)
  | shutdown
  | close
deriving Repr, DecidableEq

structure Loop where
  streams : List (List StreamCall) := []
  running : Bool := true
deriving Repr, DecidableEq

/-- The `try` block behind the accept: its calls on the stream, and how it ends. -/
def Round.converse (calls : Calls) (round : Round) : List StreamCall × Except Fault Unit :=
  match round.handshake, round.read with
  | some message, _ => ([.handshake], .error (.runtimeError message))
  | none, (_, some message) => ([.handshake, .read], .error (.runtimeError message))
  | none, (req, none) =>
      match respond { calls with openScan := round.openScan } req with
      | .error fault => ([.handshake, .read], .error fault)
      | .ok resp =>
          ([.handshake, .read, .write resp],
            match round.write with
            | some message => .error (.runtimeError message)
            | none => .ok ())

/-- One round.  Every exception is caught, but one that the deleter throws ends
the program, and undefined behavior leaves nothing to say of it. -/
def Loop.step (calls : Calls) (loop : Loop) (round : Round) : Option Loop :=
  if !loop.running then none
  else if round.accept.isSome then some loop
  else
    let (made, result) := round.converse calls
    if result = .error .badSubscript then some ⟨loop.streams ++ [made], false⟩
    else some ⟨loop.streams ++ [made ++ [.shutdown, .close]], round.close.isNone⟩

theorem fileToFetch_long (c d : Char) (rest : CppString) :
    ∃ file, fileToFetch (c :: d :: rest) = .ok file := by
  have cut : substr (c :: d :: rest) 1 = .ok (d :: rest) := substr_append [c] (d :: rest)
  have pieces : split (d :: rest) '/' ≠ [] := by simp [split]
  obtain ⟨front, last, shape⟩ := List.eq_nil_or_concat .. |>.resolve_left pieces
  refine ⟨"/tmp/".toList ++ last, ?_⟩
  simp only [fileToFetch, cut, ok_bind, shape, List.concat_eq_append, back_append]
  rfl

theorem respond_error_iff (calls : Calls) (req : Request) (fault : Fault) :
    respond calls req = .error fault ↔ fileToFetch req.target = .error fault := by
  rw [respond]
  cases fileToFetch req.target with
  | error fault => simp
  | ok file =>
      rcases opened : calls.openScan (cString file) with ⟨body, ec⟩
      cases ec with
      | none => simp [opened]
      | some message => cases known : calls.isNoSuchFile message <;> simp [opened, known]

theorem respond_undefined_iff (calls : Calls) (req : Request) :
    respond calls req = .error .badSubscript ↔ req.target.length = 1 := by
  rw [respond_error_iff]
  match req.target with
  | [] => decide
  | [c] => exact iff_of_true rfl rfl
  | c :: d :: rest =>
      obtain ⟨file, fetched⟩ := fileToFetch_long c d rest
      simp [fetched]

theorem respond_fails {calls : Calls} {req : Request} {fault : Fault}
    (fails : respond calls req = .error fault) (long : req.target.length ≠ 1) :
    req.target = [] := by
  rw [respond_error_iff] at fails
  generalize req.target = target at fails long ⊢
  match target with
  | [] => rfl
  | [c] => exact absurd rfl long
  | c :: d :: rest =>
      obtain ⟨file, fetched⟩ := fileToFetch_long c d rest
      cases fetched.symm.trans fails

/-- A request is read whose target is a single character and names no file. -/
def Round.Undefined (round : Round) : Prop :=
  round.handshake = none ∧ round.read.2 = none ∧ round.read.1.target.length = 1

variable {calls : Calls} {round : Round}

theorem Round.converse_undefined_iff :
    (round.converse calls).2 = .error .badSubscript ↔ round.Undefined := by
  obtain ⟨accept, handshake, ⟨req, ec⟩, openScan, write, close⟩ := round
  cases handshake with
  | some message => simp [converse, Undefined]
  | none =>
      cases ec with
      | some message => simp [converse, Undefined]
      | none =>
          have undefined := respond_undefined_iff { calls with openScan } req
          simp only [converse, Undefined, true_and, ← undefined]
          cases respond { calls with openScan } req with
          | error fault => simp
          | ok resp => cases write <;> simp

/-- What the stream of a client sees: a handshake, a read, and a write of the
response that is due, as far as each of them succeeds, and then the deleter's
calls.  Only a target that is empty leaves a request without a response. -/
def Round.Serves (calls : Calls) (round : Round) (stream : List StreamCall) : Prop :=
  round.handshake ≠ none ∧ stream = [.handshake, .shutdown, .close] ∨
    round.handshake = none ∧ (round.read.2 ≠ none ∨ round.read.1.target = []) ∧
      stream = [.handshake, .read, .shutdown, .close] ∨
    round.handshake = none ∧ round.read.2 = none ∧ ∃ resp,
      respond { calls with openScan := round.openScan } round.read.1 = .ok resp ∧
      stream = [.handshake, .read, .write resp, .shutdown, .close]

theorem Round.converse_serves (calls : Calls) {round : Round} (defined : ¬ round.Undefined) :
    round.Serves calls ((round.converse calls).1 ++ [.shutdown, .close]) := by
  obtain ⟨accept, handshake, ⟨req, ec⟩, openScan, write, close⟩ := round
  match handshake, ec with
  | some message, _ => exact .inl ⟨nofun, rfl⟩
  | none, some message => exact .inr (.inl ⟨rfl, .inl nofun, rfl⟩)
  | none, none =>
      have long : req.target.length ≠ 1 := fun short => defined ⟨rfl, rfl, short⟩
      right
      simp only [converse]
      cases responded : respond { calls with openScan } req with
      | error fault => exact .inl ⟨trivial, .inr (respond_fails responded long), rfl⟩
      | ok resp => exact .inr ⟨trivial, trivial, resp, rfl, rfl⟩

/-- A round that the program survives, if it is one of a client at all. -/
def Round.Survives (round : Round) : Prop :=
  round.accept = none → round.close = none ∧ ¬ round.Undefined

theorem Loop.step_cases {loop next : Loop} (taken : loop.step calls round = some next) :
    loop.running = true ∧
      (round.accept ≠ none ∧ next = loop ∨
        round.accept = none ∧ round.Undefined ∧
          next = ⟨loop.streams ++ [(round.converse calls).1], false⟩ ∨
        round.accept = none ∧ ¬ round.Undefined ∧
          next = ⟨loop.streams ++ [(round.converse calls).1 ++ [.shutdown, .close]],
            round.close.isNone⟩) := by
  unfold Loop.step at taken
  split at taken
  · cases taken
  case isFalse running =>
    refine ⟨by simpa using running, ?_⟩
    split at taken
    case isTrue failed =>
      cases taken
      exact .inl ⟨Option.isSome_iff_ne_none.mp failed, rfl⟩
    case isFalse accepted =>
      have accepted : round.accept = none := by simpa using accepted
      right
      dsimp only at taken
      split at taken
      case isTrue undefined =>
        cases taken
        exact .inl ⟨accepted, Round.converse_undefined_iff.mp undefined, rfl⟩
      case isFalse defined =>
        cases taken
        exact .inr ⟨accepted, mt Round.converse_undefined_iff.mpr defined, rfl⟩

theorem step_running_iff {loop next : Loop} (taken : loop.step calls round = some next) :
    next.running = true ↔ round.Survives := by
  obtain ⟨running, ⟨failed, rfl⟩ | ⟨accepted, undefined, rfl⟩ | ⟨accepted, defined, rfl⟩⟩ :=
    Loop.step_cases taken
  · simp [Round.Survives, failed, running]
  · simp [Round.Survives, accepted, undefined]
  · simp [Round.Survives, accepted, defined]

theorem run_ended {loop last : Loop} {rounds : List Round} (ended : loop.running = false)
    (ran : run (Loop.step calls) loop rounds = some last) : rounds = [] ∧ last = loop := by
  cases rounds with
  | nil =>
      cases ran
      exact ⟨rfl, rfl⟩
  | cons round rest =>
      obtain ⟨next, taken, -⟩ := run_cons_inv ran
      rw [(Loop.step_cases taken).1] at ended
      cases ended

theorem run_running_iff {loop last : Loop} {rounds : List Round} (running : loop.running = true)
    (ran : run (Loop.step calls) loop rounds = some last) :
    last.running = true ↔ ∀ round ∈ rounds, round.Survives := by
  induction rounds generalizing loop with
  | nil =>
      cases ran
      simp [running]
  | cons round rest ih =>
      obtain ⟨next, taken, ran⟩ := run_cons_inv ran
      have survives := step_running_iff taken
      rw [List.forall_mem_cons, ← survives]
      cases still : next.running with
      | true => simp [ih still ran]
      | false =>
          obtain ⟨rfl, rfl⟩ := run_ended still ran
          simp [still]

theorem run_streams {loop last : Loop} {rounds : List Round}
    (ran : run (Loop.step calls) loop rounds = some last)
    (legible : ∀ round ∈ rounds, round.accept = none → ¬ round.Undefined) :
    ∃ added, last.streams = loop.streams ++ added ∧
      List.Forall₂ (Round.Serves calls) (rounds.filter (·.accept.isNone)) added := by
  induction rounds generalizing loop with
  | nil =>
      cases ran
      exact ⟨[], (List.append_nil _).symm, .nil⟩
  | cons round rest ih =>
      obtain ⟨next, taken, ran⟩ := run_cons_inv ran
      obtain ⟨added, streams, serves⟩ := ih ran fun other member => legible other (by simp [member])
      obtain ⟨-, ⟨failed, rfl⟩ | ⟨accepted, undefined, -⟩ | ⟨accepted, defined, rfl⟩⟩ :=
        Loop.step_cases taken
      · have dropped : ¬ round.accept.isNone = true := by simpa using failed
        exact ⟨added, streams, by simpa [dropped] using serves⟩
      · exact absurd undefined (legible round (by simp) accepted)
      · refine ⟨_ :: added, by simpa using streams, ?_⟩
        have kept : round.accept.isNone = true := by simp [accepted]
        simp only [List.filter_cons, kept, if_true]
        exact .cons (Round.converse_serves calls defined) serves

/-- The loop runs on as long as no deleter throws and no target of one character
is read; no other failure of a client ends it.  And unless such a target is
read, every client that was accepted has its stream shut down and closed once,
behind the one response to its own request, before the next one is accepted. -/
theorem loop_serves {rounds : List Round} {last : Loop}
    (ran : run (Loop.step calls) {} rounds = some last) :
    (last.running = true ↔ ∀ round ∈ rounds, round.Survives) ∧
      ((∀ round ∈ rounds, round.accept = none → ¬ round.Undefined) →
        List.Forall₂ (Round.Serves calls) (rounds.filter (·.accept.isNone)) last.streams) := by
  refine ⟨run_running_iff rfl ran, fun legible => ?_⟩
  obtain ⟨added, streams, serves⟩ := run_streams ran legible
  rw [streams]
  exact serves

/-- A file system without files. -/
def missing : Calls where
  versionString := "Boost.Beast".toList
  contentLength := fun header size => header.set "Content-Length".toList (Nat.toDigits 10 size)
  preparePayload := fun header size => header.set "Content-Length".toList (Nat.toDigits 10 size)
  keepAlive := fun header _ => header
  openScan := fun _ => (⟨[], 0⟩, some "No such file or directory".toList)
  isNoSuchFile := (· == "No such file or directory".toList)

def missing.asked (target : CppString) : Round where
  read := (⟨target, 11, false⟩, none)
  openScan := missing.openScan

theorem loop_serves_missing :
    let rounds : List Round := [{ missing.asked [] with accept := some "EMFILE".toList },
      { missing.asked [] with handshake := some "bad certificate".toList }, missing.asked "/a".toList]
    (∃ last resp, run (Loop.step missing) {} rounds = some last ∧ last.running = true ∧
      last.streams =
        [[.handshake, .shutdown, .close], [.handshake, .read, .write resp, .shutdown, .close]]) ∧
      ∃ last, run (Loop.step missing) {} (rounds ++ [missing.asked "/".toList]) = some last ∧
        last.running = false := by
  intro rounds
  have survives : ∀ round ∈ rounds, round.Survives := by
    simp [rounds, missing.asked, Round.Survives, Round.Undefined]
  constructor
  · obtain ⟨last, ran⟩ : ∃ last, run (Loop.step missing) {} rounds = some last := ⟨_, rfl⟩
    obtain ⟨running, serves⟩ := loop_serves ran
    have served := serves fun round member accepted => (survives round member accepted).2
    obtain ⟨first, _, refused, served, streams⟩ := List.forall₂_cons_left_iff.mp served
    obtain ⟨second, _, answered, done, rfl⟩ := List.forall₂_cons_left_iff.mp served
    obtain rfl := List.forall₂_nil_left_iff.mp done
    simp only [Round.Serves, missing.asked] at refused answered
    obtain rfl : first = [.handshake, .shutdown, .close] := by simpa using refused
    obtain ⟨resp, -, rfl⟩ : ∃ resp, respond missing ⟨"/a".toList, 11, false⟩ = .ok resp ∧
        second = [.handshake, .read, .write resp, .shutdown, .close] := by simpa using answered
    exact ⟨last, resp, ran, running.mpr survives, streams⟩
  · obtain ⟨last, ran⟩ : ∃ last,
        run (Loop.step missing) {} (rounds ++ [missing.asked "/".toList]) = some last := ⟨_, rfl⟩
    refine ⟨last, ran, Bool.not_eq_true _ ▸ mt (loop_serves ran).1.mp fun all => ?_⟩
    exact (all (missing.asked "/".toList) (by simp) rfl).2 ⟨rfl, rfl, rfl⟩

end ChaiBeast.FileServer
