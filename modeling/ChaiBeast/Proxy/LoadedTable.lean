import ChaiBeast.Proxy.Determinism

namespace ChaiBeast.Proxy

open ChaiBeast.Data

/-! What a lookup returns after any configuration: entries may repeat a path,
set the default more than once, or be of an unknown type. -/

/-- The forwarder built from the last entry of a known type that is selected. -/
def lastBuilt (select : RouteEntry → Bool) (routdef : List RouteEntry) : Option AbstractForwarder :=
  (routdef.filterMap fun r => if select r then r.forwarder else none).getLast?

def KnownRoute (routdef : List RouteEntry) (key : CppString) : Prop :=
  ∃ r ∈ routdef, r.forwarder.isSome ∧ r.path = key

theorem lastBuilt_cons (select : RouteEntry → Bool) (r : RouteEntry) (rest : List RouteEntry) :
    lastBuilt select (r :: rest) =
      (lastBuilt select rest).or (if select r then r.forwarder else none) := by
  unfold lastBuilt
  rw [List.filterMap_cons]
  cases (if select r then r.forwarder else none) with
  | none => simp
  | some forwarder => simp [List.getLast?_cons]

theorem lastBuilt_path_isSome {routdef : List RouteEntry} {key : CppString} :
    (lastBuilt (·.path == key) routdef).isSome ↔ KnownRoute routdef key := by
  induction routdef with
  | nil => simp [lastBuilt, KnownRoute]
  | cons r rest ih =>
      rw [lastBuilt_cons, Option.isSome_or, Bool.or_eq_true, ih]
      by_cases same : r.path = key <;> simp [KnownRoute, same, or_comm]

theorem covers_iff {key path : CppString} :
    covers key path ↔ ∃ stem, key = stem ++ ['*'] ∧ stem <+: path := by
  simp only [covers, Bool.and_eq_true, List.isPrefixOf_iff_prefix, List.isSuffixOf_iff_suffix]
  constructor
  · intro both
    obtain ⟨⟨stem, rfl⟩, starts⟩ := both
    exact ⟨stem, rfl, by simpa using starts⟩
  · intro shaped
    obtain ⟨stem, rfl, starts⟩ := shaped
    exact ⟨List.suffix_append _ _, by simpa using starts⟩

namespace RequestForwarder

theorem addEntry_table (self : RequestForwarder) (r : RouteEntry) :
    (self.addEntry r).table =
      match r.forwarder with
      | none => self.table
      | some forwarder => OrderedMap.insert r.path forwarder self.table := by
  unfold addEntry
  cases r.forwarder with
  | none => rfl
  | some forwarder => cases r.isDefault <;> rfl

theorem load_distinct (routdef : List RouteEntry) :
    ((load routdef).table.map Prod.fst).Nodup := by
  have fold : ∀ self : RequestForwarder, (self.table.map Prod.fst).Nodup →
      ((routdef.foldl addEntry self).table.map Prod.fst).Nodup := by
    induction routdef with
    | nil => exact fun _ distinct => distinct
    | cons r rest ih =>
        intro self distinct
        apply ih
        rw [addEntry_table]
        cases r.forwarder with
        | none => exact distinct
        | some forwarder => exact OrderedMap.insert_distinct _ _ distinct
  exact fold {} .nil

theorem load_find? (routdef : List RouteEntry) (key : CppString) :
    (load routdef).table.find? (·.1 == key) =
      (lastBuilt (·.path == key) routdef).map fun forwarder => (key, forwarder) := by
  have fold : ∀ self : RequestForwarder,
      (routdef.foldl addEntry self).table.find? (·.1 == key) =
        ((lastBuilt (·.path == key) routdef).map fun forwarder => (key, forwarder)).or
          (self.table.find? (·.1 == key)) := by
    induction routdef with
    | nil => simp [lastBuilt]
    | cons r rest ih =>
        intro self
        rw [List.foldl_cons, ih, lastBuilt_cons, addEntry_table]
        cases r.forwarder with
        | none => simp
        | some forwarder =>
            by_cases same : r.path = key
            · cases lastBuilt (·.path == key) rest <;> simp [same, OrderedMap.find?_insert_key]
            · cases lastBuilt (·.path == key) rest <;> simp [same, OrderedMap.find?_insert_key]
  simpa [load] using fold {}

theorem load_default (routdef : List RouteEntry) :
    (load routdef).defaultForwarder = lastBuilt RouteEntry.isDefault routdef := by
  simp [load, foldl_addEntry_default, lastBuilt]

/-- Entries of an unknown type leave no trace. -/
theorem load_known (routdef : List RouteEntry) :
    load routdef = load (routdef.filter (·.forwarder.isSome)) := by
  unfold load
  generalize ({} : RequestForwarder) = self
  induction routdef generalizing self with
  | nil => rfl
  | cons r rest ih =>
      rw [List.foldl_cons, ih]
      cases known : r.forwarder with
      | none => simp [known, addEntry]
      | some forwarder => simp [known]

variable {routdef : List RouteEntry} {router : RequestForwarder}

theorem LoadedFrom.find? (loaded : LoadedFrom routdef router) (key : CppString) :
    router.table.find? (·.1 == key) =
      (lastBuilt (·.path == key) routdef).map fun forwarder => (key, forwarder) := by
  rw [Selection.find?_key_perm loaded.table (load_distinct routdef), load_find?]

theorem LoadedFrom.known_of_mem (loaded : LoadedFrom routdef router)
    {entry : CppString × AbstractForwarder} (member : entry ∈ router.table) :
    KnownRoute routdef entry.1 := by
  have stored := List.find?_isSome (p := (·.1 == entry.1)).mpr ⟨entry, member, beq_self_eq_true _⟩
  rw [loaded.find?, Option.isSome_map] at stored
  exact lastBuilt_path_isSome.mp stored

theorem LoadedFrom.exists_mem (loaded : LoadedFrom routdef router) {key : CppString}
    (known : KnownRoute routdef key) : ∃ entry ∈ router.table, entry.1 = key := by
  obtain ⟨forwarder, last⟩ := Option.isSome_iff_exists.mp (lastBuilt_path_isSome.mpr known)
  have found := loaded.find? key
  rw [last, Option.map_some] at found
  exact ⟨_, List.mem_of_find?_eq_some found, rfl⟩

theorem LoadedFrom.atKey (loaded : LoadedFrom routdef router) {key : CppString}
    (known : KnownRoute routdef key) :
    ∃ forwarder, lastBuilt (·.path == key) routdef = some forwarder ∧
      router.atKey key = .ok ⟨.route key, forwarder⟩ := by
  obtain ⟨forwarder, last⟩ := Option.isSome_iff_exists.mp (lastBuilt_path_isSome.mpr known)
  exact ⟨forwarder, last, by simp only [RequestForwarder.atKey, loaded.find?, last, Option.map_some]⟩

/-- What a lookup does with the covering route that comes first. -/
theorem LoadedFrom.getForwarder_covered (loaded : LoadedFrom routdef router) {s : CppString}
    (noNul : '\x00' ∉ s) (covered : ∃ key, KnownRoute routdef key ∧ covers key s) :
    ∃ stem forwarder, stem <+: s ∧
      lastBuilt (·.path == stem ++ ['*']) routdef = some forwarder ∧
      router.getForwarder s = .ok (some ⟨.route (stem ++ ['*']), forwarder⟩) := by
  obtain ⟨key, known, covering⟩ := covered
  obtain ⟨entry, member, rfl⟩ := loaded.exists_mem known
  obtain ⟨first, found⟩ := Option.isSome_iff_exists.mp
    (List.find?_isSome (p := fun entry => covers entry.1 s).mpr ⟨entry, member, covering⟩)
  have firstCovers : covers first.1 s :=
    List.find?_some (p := fun entry : CppString × AbstractForwarder => covers entry.1 s) found
  obtain ⟨stem, shape, starts⟩ := covers_iff.mp firstCovers
  obtain ⟨forwarder, last, stored⟩ :=
    loaded.atKey (loaded.known_of_mem (List.mem_of_find?_eq_some found))
  have whole : cString first.1 = first.1 := by
    apply cString_of_noNul
    rw [shape]
    simpa using fun inStem => noNul (starts.subset inStem)
  rw [shape] at last
  refine ⟨stem, forwarder, starts, last, ?_⟩
  rw [getForwarder_eq_answer, found, answer, whole, stored, shape]
  rfl

theorem LoadedFrom.getForwarder_uncovered (loaded : LoadedFrom routdef router) {s : CppString}
    (uncovered : ¬ ∃ key, KnownRoute routdef key ∧ covers key s) :
    router.getForwarder s = .ok
      (match lastBuilt (·.path == s) routdef with
      | some forwarder => some ⟨.route s, forwarder⟩
      | none => (lastBuilt RouteEntry.isDefault routdef).map (⟨.default, ·⟩)) := by
  have none : (router.table.find? fun entry => covers entry.1 s) = none := by
    rw [List.find?_eq_none]
    intro entry member covering
    exact uncovered ⟨entry.1, loaded.known_of_mem member, covering⟩
  rw [getForwarder_eq_answer, none, answer, loaded.find?, loaded.default, load_default]
  cases lastBuilt (·.path == s) routdef <;> rfl

end RequestForwarder

open RequestForwarder in
/-- The loaded table, in any order of iteration, answers a path with the last
entry of one covering wildcard route, else with the last entry for exactly that
path, else with the last default.  Only entries of a known type count. -/
theorem getForwarder_loaded {routdef : List RouteEntry} {router : RequestForwarder}
    (loaded : LoadedFrom routdef router) {s : CppString} (noNul : '\x00' ∉ s) :
    let wildcard := ∃ r ∈ routdef, r.forwarder.isSome ∧ ∃ stem, r.path = stem ++ ['*'] ∧ stem <+: s
    let exactPath := ∃ r ∈ routdef, r.forwarder.isSome ∧ r.path = s
    (wildcard → ∃ stem forwarder, stem <+: s ∧
      lastBuilt (·.path == stem ++ ['*']) routdef = some forwarder ∧
      router.getForwarder s = .ok (some ⟨.route (stem ++ ['*']), forwarder⟩)) ∧
    (¬ wildcard → exactPath → ∃ forwarder, lastBuilt (·.path == s) routdef = some forwarder ∧
      router.getForwarder s = .ok (some ⟨.route s, forwarder⟩)) ∧
    (¬ wildcard → ¬ exactPath →
      router.getForwarder s = .ok ((lastBuilt RouteEntry.isDefault routdef).map (⟨.default, ·⟩))) ∧
    (load routdef = load (routdef.filter (·.forwarder.isSome))) ∧
    ∃ result, router.getForwarder s = .ok result := by
  intro wildcard exactPath
  have covering : wildcard ↔ ∃ key, KnownRoute routdef key ∧ covers key s := by
    simp only [wildcard, KnownRoute, covers_iff]
    constructor
    · intro some
      obtain ⟨r, member, known, shaped⟩ := some
      exact ⟨r.path, ⟨r, member, known, rfl⟩, shaped⟩
    · intro some
      obtain ⟨key, ⟨r, member, known, rfl⟩, shaped⟩ := some
      exact ⟨r, member, known, shaped⟩
  have other : ¬ wildcard → router.getForwarder s = _ := fun uncovered =>
    loaded.getForwarder_uncovered (mt covering.mpr uncovered)
  refine ⟨fun covered => loaded.getForwarder_covered noNul (covering.mp covered), ?_, ?_,
    load_known routdef, ?_⟩
  · intro uncovered exact
    obtain ⟨forwarder, last⟩ := Option.isSome_iff_exists.mp (lastBuilt_path_isSome.mpr exact)
    exact ⟨forwarder, last, by rw [other uncovered, last]⟩
  · intro uncovered absent
    have none : lastBuilt (·.path == s) routdef = none := by
      rw [← Option.not_isSome_iff_eq_none]
      exact mt lastBuilt_path_isSome.mp absent
    rw [other uncovered, none]
  · by_cases covered : wildcard
    · obtain ⟨_, _, _, _, found⟩ := loaded.getForwarder_covered noNul (covering.mp covered)
      exact ⟨_, found⟩
    · exact ⟨_, other covered⟩

theorem getForwarder_loaded_replaced_route :
    let old : RouteEntry :=
      { path := "/file/*".toList, ip := "localhost".toList, port := "8081".toList }
    let unknown : RouteEntry := { old with type := some "no_forwarder".toList }
    let new : RouteEntry := { old with port := "8082".toList }
    let routdef := [old, new, unknown]
    ∃ stem forwarder, stem <+: "/file/a".toList ∧
      lastBuilt (·.path == stem ++ ['*']) routdef = some forwarder ∧
      (RequestForwarder.load routdef).getForwarder "/file/a".toList =
        .ok (some ⟨.route (stem ++ ['*']), forwarder⟩) := by
  intro old unknown new routdef
  exact (@getForwarder_loaded routdef (.load routdef) ⟨.refl _, rfl⟩ "/file/a".toList (by decide)).1
    ⟨new, by simp [routdef], by decide, "/file/".toList, by decide, by decide⟩

example :
    let old : RouteEntry := { path := "/*".toList, ip := "localhost".toList, port := "8081".toList }
    let unknown : RouteEntry := { old with type := some "no_forwarder".toList }
    let new : RouteEntry := { old with port := "8082".toList }
    (RequestForwarder.load [old, new, unknown]).getForwarder "/a".toList = .ok (some
      ⟨.route "/*".toList, ⟨.secureFlexibleForwarder, "localhost".toList, "8082".toList⟩⟩) := by
  decide

end ChaiBeast.Proxy
