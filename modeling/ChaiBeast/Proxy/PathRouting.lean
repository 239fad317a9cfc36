import ChaiBeast.Proxy.LoadedTable
import ChaiBeast.Routing.Router
import Mathlib.Data.List.Find

namespace ChaiBeast.Proxy

open ChaiBeast.Data ChaiBeast.Routing

/-! What a query behind the path does to the choice of a forwarder. -/

/-- `selectForwarder` of include/server.hpp: the whole target is looked up. -/
def selectForwarder (router : RequestForwarder) (request : VariantRequest) :
    Except Fault (Option Pointer × VariantRequest) := do
  let forwarder ← router.getForwarder request.target
  return (forwarder, request)

/-- The same table, iterated in some order. -/
structure Reordered (router order : RequestForwarder) : Prop where
  table : order.table.Perm router.table
  default : order.defaultForwarder = router.defaultForwarder

/-- `getForwarder` may return `result`, in some order of iteration. -/
def MayReturn (router : RequestForwarder) (path : CppString) (result : Option Pointer) : Prop :=
  ∃ order, Reordered router order ∧ order.getForwarder path = .ok result

/-- A wildcard without a query mark does not see the query. -/
theorem covers_query {key path : CppString} (query : CppString) (plain : '?' ∉ key) :
    covers key (path ++ '?' :: query) = covers key path := by
  rw [Bool.eq_iff_iff, covers_iff, covers_iff]
  refine exists_congr fun stem => and_congr_right fun shape => ?_
  exact prefix_append_cons_iff query fun member => plain (by simp [shape, member])

theorem selectForwarder_ok_iff {router : RequestForwarder} {request : VariantRequest}
    {forwarder : Option Pointer} :
    selectForwarder router request = .ok (forwarder, request) ↔
      router.getForwarder request.target = .ok forwarder := by
  unfold selectForwarder
  cases router.getForwarder request.target <;>
    simp

namespace RequestForwarder

variable {router order : RequestForwarder} {path : CppString}

/-- Over all orders of iteration, any entry selected may come first. -/
theorem forall_reordered_find? {select : CppString × AbstractForwarder → Bool}
    {P : Option (CppString × AbstractForwarder) → Prop} :
    (∀ order, Reordered router order → P (order.table.find? select)) ↔
      ((∀ entry ∈ router.table, select entry = false) → P none) ∧
        ∀ entry ∈ router.table, select entry → P (some entry) := by
  rw [← Selection.forall_order_find?]
  constructor
  · exact fun every table shuffled => every { router with table := table } ⟨shuffled, rfl⟩
  · exact fun every order same => every order.table same.table

theorem answer_none_iff :
    router.answer path none = .ok (router.defaultForwarder.map (⟨.default, ·⟩)) ↔
      path ∉ router.table.map Prod.fst := by
  cases found : router.table.find? (·.1 == path) with
  | none =>
      have missed := List.find?_eq_none.mp found
      refine iff_of_true (by rw [answer, found]) fun member => ?_
      obtain ⟨entry, stored, key⟩ := List.mem_map.mp member
      exact missed entry stored (by simp [key])
  | some entry =>
      have key : entry.1 = path := by simpa using List.find?_some found
      refine iff_of_false (fun defaulted => ?_) fun absent => absent ?_
      · rw [answer, found, Except.ok.injEq] at defaulted
        cases default : router.defaultForwarder <;> simp [default] at defaulted
      · exact key ▸ List.mem_map_of_mem (List.mem_of_find?_eq_some found)

/-- A covering entry is answered for any path with the entry of its C string. -/
theorem answer_some_iff {entry : CppString × AbstractForwarder} {result : Option Pointer} :
    router.answer path (some entry) = .ok result ↔
      ∃ pointer, router.atKey (cString entry.1) = .ok pointer ∧ result = some pointer := by
  rw [answer]
  cases router.atKey (cString entry.1) with
  | error fault => simp [Except.map]
  | ok pointer => simp [Except.map, eq_comm]

variable (distinct : (router.table.map Prod.fst).Nodup)
include distinct

theorem getForwarder_reordered (same : Reordered router order) (path : CppString) :
    order.getForwarder path =
      router.answer path (order.table.find? fun entry => covers entry.1 path) := by
  rw [getForwarder_eq_answer, answer_perm same.table distinct same.default]

theorem mayReturn_iff {result : Option Pointer} :
    MayReturn router path result ↔
      ((∀ entry ∈ router.table, covers entry.1 path = false) ∧
          router.answer path none = .ok result) ∨
        ∃ entry ∈ router.table, covers entry.1 path ∧
          router.answer path (some entry) = .ok result := by
  have never := @forall_reordered_find? router (fun entry => covers entry.1 path)
    fun first => ¬ router.answer path first = .ok result
  rw [← not_iff_not, MayReturn]
  simp only [not_or, not_and, not_exists]
  rw [← never]
  refine forall₂_congr fun order same => ?_
  rw [getForwarder_reordered distinct same]

/-- With a query, the same wildcards are found as without. -/
theorem getForwarder_query (plain : ∀ entry ∈ router.table, '?' ∉ entry.1)
    (same : Reordered router order) (path query : CppString) :
    order.getForwarder (path ++ '?' :: query) =
      router.answer (path ++ '?' :: query) (order.table.find? fun entry => covers entry.1 path) := by
  rw [getForwarder_reordered distinct same]
  congr 1
  exact List.find?_congr fun entry member =>
    covers_query query (plain entry (same.table.mem_iff.mp member))

/-- With a query, the first covering entry leads where the path alone may lead. -/
def KeepsRoute (router : RequestForwarder) (path query : CppString)
    (first : Option (CppString × AbstractForwarder)) : Prop :=
  ∃ result, router.answer (path ++ '?' :: query) first = .ok result ∧ MayReturn router path result

theorem keepsRoute_some_iff {entry : CppString × AbstractForwarder} (member : entry ∈ router.table)
    (covering : covers entry.1 path) (query : CppString) :
    KeepsRoute router path query (some entry) ↔ cString entry.1 ∈ router.table.map Prod.fst := by
  constructor
  · intro kept
    obtain ⟨result, answered, -⟩ := kept
    obtain ⟨pointer, found, -⟩ := answer_some_iff.mp answered
    exact (mem_of_atKey found).1
  · intro stored
    obtain ⟨forwarder, found⟩ := atKey_of_mem stored
    refine ⟨_, answer_some_iff.mpr ⟨_, found, rfl⟩, (mayReturn_iff distinct).mpr (.inr ?_)⟩
    exact ⟨entry, member, covering, answer_some_iff.mpr ⟨_, found, rfl⟩⟩

theorem keepsRoute_none_iff (plain : ∀ entry ∈ router.table, '?' ∉ entry.1)
    (uncovered : ∀ entry ∈ router.table, covers entry.1 path = false) (query : CppString) :
    KeepsRoute router path query none ↔ path ∉ router.table.map Prod.fst := by
  have queried : router.answer (path ++ '?' :: query) none =
      .ok (router.defaultForwarder.map (⟨.default, ·⟩)) := by
    refine answer_none_iff.mpr fun member => ?_
    obtain ⟨entry, stored, key⟩ := List.mem_map.mp member
    exact plain entry stored (by simp [key])
  have alone : ∀ result, MayReturn router path result ↔ router.answer path none = .ok result := by
    intro result
    rw [mayReturn_iff distinct, and_iff_right uncovered, or_iff_left]
    intro some
    obtain ⟨entry, member, covering, -⟩ := some
    rw [uncovered entry member] at covering
    contradiction
  simp only [KeepsRoute, queried, alone, Except.ok.injEq, exists_eq_left', answer_none_iff]

end RequestForwarder

open RequestForwarder in
/-- A request with a query is sent where its path is routed exactly when every
wildcard route that covers the path can be looked up by its C string, and a
route for exactly the path is covered by a wildcard as well.  The table, an
`unordered_map`, has distinct keys. -/
theorem routes_by_path_iff {router : RequestForwarder}
    (distinct : (router.table.map Prod.fst).Nodup) (plain : ∀ entry ∈ router.table, '?' ∉ entry.1)
    {p q : CppString} {request : VariantRequest} (target : request.target = p ++ '?' :: q) :
    ((∀ order, Reordered router order → ∃ forwarder,
        selectForwarder order request = .ok (forwarder, request) ∧ MayReturn router p forwarder) ∧
      ∀ entry ∈ router.table, entry.1 = p → (∀ other ∈ router.table, covers other.1 p = false) →
        ∀ order, Reordered router order →
          selectForwarder order request = .ok (some ⟨.route p, entry.2⟩, request)) ↔
    (∀ entry ∈ router.table, covers entry.1 p → cString entry.1 ∈ router.table.map Prod.fst) ∧
      (p ∈ router.table.map Prod.fst → ∃ entry ∈ router.table, covers entry.1 p) := by
  have every : (∀ order, Reordered router order → ∃ forwarder,
      selectForwarder order request = .ok (forwarder, request) ∧ MayReturn router p forwarder) ↔
      ((∀ entry ∈ router.table, covers entry.1 p = false) → KeepsRoute router p q none) ∧
        ∀ entry ∈ router.table, covers entry.1 p → KeepsRoute router p q (some entry) := by
    rw [← forall_reordered_find?]
    refine forall₂_congr fun order same => ?_
    simp only [selectForwarder_ok_iff, target, getForwarder_query distinct plain same, KeepsRoute]
  have missed : (¬ ∃ entry ∈ router.table, covers entry.1 p) ↔
      ∀ entry ∈ router.table, covers entry.1 p = false := by simp
  rw [every]
  constructor
  · intro kept
    obtain ⟨⟨unrouted, routed⟩, -⟩ := kept
    refine ⟨fun entry member covering =>
      (keepsRoute_some_iff distinct member covering q).mp (routed entry member covering), ?_⟩
    intro stored
    by_contra none
    have uncovered := missed.mp none
    exact (keepsRoute_none_iff distinct plain uncovered q).mp (unrouted uncovered) stored
  · intro both
    obtain ⟨readable, covered⟩ := both
    refine ⟨⟨fun uncovered => ?_, fun entry member covering =>
      (keepsRoute_some_iff distinct member covering q).mpr (readable entry member covering)⟩, ?_⟩
    · exact (keepsRoute_none_iff distinct plain uncovered q).mpr fun stored =>
        missed.mpr uncovered (covered stored)
    · intro entry member exact uncovered
      exact absurd (covered (exact ▸ List.mem_map_of_mem member)) (missed.mpr uncovered)

theorem routes_by_path_iff_file :
    let file : CppString × AbstractForwarder :=
      ("/file/*".toList, ⟨.secureFlexibleForwarder, "localhost".toList, "8082".toList⟩)
    let router : RequestForwarder := { table := [file] }
    let request : VariantRequest := .stringbody ⟨.get, "/file/a?name=x".toList, 11, [], by decide⟩
    ∀ order, Reordered router order → ∃ forwarder,
      selectForwarder order request = .ok (forwarder, request) ∧
        MayReturn router "/file/a".toList forwarder := by
  intro file router request
  exact ((@routes_by_path_iff router (by decide) (by decide) "/file/a".toList "name=x".toList request
    (by decide)).mpr ⟨by decide, by decide⟩).1

/-- A query sends the request for an exact route to the default. -/
theorem query_misses_exact_route :
    let hello : RouteEntry :=
      { path := "/hello".toList, ip := "localhost".toList, port := "8082".toList }
    let redfish : RouteEntry :=
      { path := "/redfish/v1/".toList, ip := "localhost".toList, port := "https".toList,
        default := some true }
    let router := RequestForwarder.load [hello, redfish]
    let request : VariantRequest := .stringbody ⟨.get, "/hello?name=x".toList, 11, [], by decide⟩
    (router.getForwarder "/hello".toList).map (·.map Pointer.owner) =
        .ok (some (.route "/hello".toList)) ∧
      (selectForwarder router request).map (·.1.map Pointer.owner) = .ok (some .default) ∧
      ¬ ∀ order, Reordered router order → ∃ forwarder,
        selectForwarder order request = .ok (forwarder, request) ∧
          MayReturn router "/hello".toList forwarder := by
  intro hello redfish router request
  refine ⟨by decide, by decide, fun every => ?_⟩
  obtain ⟨forwarder, selected, returned⟩ := every router ⟨.refl _, rfl⟩
  have default : selectForwarder router request =
      .ok (router.defaultForwarder.map (⟨.default, ·⟩), request) := by decide
  rw [default, Except.ok.injEq, Prod.mk.injEq] at selected
  rw [← selected.1, RequestForwarder.mayReturn_iff (by decide)] at returned
  exact absurd returned (by decide)

end ChaiBeast.Proxy
