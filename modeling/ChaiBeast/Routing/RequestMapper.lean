import ChaiBeast.Routing.RegexRange

namespace ChaiBeast.Routing

open ChaiBeast.Data

/-! `request_mapper` of include/request_mapper.hpp.  Its `operator==` is the
route matcher: the left operand is the stored template, the right one the
incoming path. -/

inductive Verb where
  | unknown | delete | get | head | post | put | connect | options | trace
  | copy | lock | mkcol | move | propfind | proppatch | search | unlock | bind | rebind | unbind
  | acl | report | mkactivity | checkout | merge | msearch | notify | subscribe | unsubscribe
  | patch | purge | mkcalendar | link | unlink
deriving Repr, DecidableEq

structure RequestMapper where
  path : CppString
  method : Verb
deriving Repr, DecidableEq

namespace RequestMapper

/-- The loop of `operator==` over the unmatched pieces, with `incomingurl` and
`split_count` as it leaves them. -/
def matchPieces : List CppString → CppString → Nat → Option (CppString × Nat)
  | [], incomingurl, splitCount => some (incomingurl, splitCount)
  | str :: pieces, incomingurl, splitCount =>
      match find str incomingurl with
      | none => none
      | some index => matchPieces pieces (incomingurl.drop (index + str.length)) (splitCount + 1)

def equals (first second : RequestMapper) : Bool :=
  if first.method ≠ second.method then false
  else
    match matchPieces (getUnmatched first.path) second.path 0 with
    | none => false
    | some (incomingurl, splitCount) =>
        -- An undecorated path has one piece and must match exactly; so must a
        -- decorated one such as `/user/{id}`, with nothing behind its name.
        if splitCount = 1 then first.path == second.path else incomingurl.isEmpty

instance : BEq RequestMapper := ⟨equals⟩

theorem matchPieces_eq_scan (pieces : List CppString) (incomingurl : CppString) (splitCount : Nat) :
    matchPieces pieces incomingurl splitCount =
      (scan pieces incomingurl).map fun result => (result.2, splitCount + pieces.length) := by
  induction pieces generalizing incomingurl splitCount with
  | nil => rfl
  | cons str pieces ih =>
      simp only [matchPieces, scan]
      cases find str incomingurl with
      | none => rfl
      | some index =>
          dsimp only
          rw [ih, Option.map_map]
          simp only [Function.comp_def, List.length_cons]
          congr 1
          funext result
          rw [Nat.add_assoc, Nat.add_comm 1]

theorem beq_iff {first second : RequestMapper} :
    (first == second) = true ↔ first.method = second.method ∧
      ∃ gaps rest, scan (getUnmatched first.path) second.path = some (gaps, rest) ∧
        if (getUnmatched first.path).length = 1 then first.path = second.path else rest = [] := by
  change equals first second = true ↔ _
  unfold equals
  by_cases sameMethod : first.method = second.method
  · rw [if_neg (by simpa using sameMethod), matchPieces_eq_scan]
    cases scanned : scan (getUnmatched first.path) second.path with
    | none => simp
    | some result =>
        obtain ⟨gaps, rest⟩ := result
        simp only [Option.map_some, Nat.zero_add]
        split <;> simp [sameMethod]
  · simp [sameMethod]

theorem beq_method {first second : RequestMapper} (matched : (first == second) = true) :
    first.method = second.method :=
  (beq_iff.mp matched).1

/-- With at least two pieces the matcher accepts exactly the paths that the
pieces use up. -/
theorem beq_iff_scan {path incoming : CppString} {method : Verb}
    (pieces : (getUnmatched path).length ≠ 1) :
    ((⟨path, method⟩ : RequestMapper) == ⟨incoming, method⟩) = true ↔
      ∃ gaps, scan (getUnmatched path) incoming = some (gaps, []) := by
  rw [beq_iff]
  simp only [true_and, if_neg pieces]
  constructor
  · intro matched
    obtain ⟨gaps, rest, scanned, rfl⟩ := matched
    exact ⟨gaps, scanned⟩
  · intro matched
    obtain ⟨gaps, scanned⟩ := matched
    exact ⟨gaps, [], scanned, rfl⟩

end RequestMapper

end ChaiBeast.Routing
