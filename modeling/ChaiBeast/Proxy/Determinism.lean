import ChaiBeast.Data.Selection
import ChaiBeast.Proxy.RequestForwarder

namespace ChaiBeast.Proxy

open ChaiBeast.Data

/-! How the forwarder chosen for a path depends on the order of the routes in
the configuration and in the table. -/

def covers (key path : CppString) : Bool :=
  ['*'].isSuffixOf key && (key.take (key.length - 1)).isPrefixOf path

namespace RequestForwarder

/-- What a lookup returns, given the first covering entry in the order of
iteration. -/
def answer (self : RequestForwarder) (path : CppString) :
    Option (CppString × AbstractForwarder) → Except Fault (Option Pointer)
  | some entry => (self.atKey (cString entry.1)).map some
  | none =>
      .ok <| match self.table.find? (·.1 == path) with
        | some entry => some ⟨.route entry.1, entry.2⟩
        | none => self.defaultForwarder.map (⟨.default, ·⟩)

theorem getForwarder_eq_answer (self : RequestForwarder) (path : CppString) :
    self.getForwarder path = self.answer path (self.table.find? fun entry => covers entry.1 path) := by
  have search : (((self.table.map Prod.fst).filter (['*'].isSuffixOf ·)).map fun a =>
      StringView.mk a (a.length - 1)).find? (fun a => a.text.isPrefixOf path) =
      (self.table.find? fun entry => covers entry.1 path).map fun entry =>
        StringView.mk entry.1 (entry.1.length - 1) := by
    simp only [List.find?_map, List.find?_filter, Option.map_map, Function.comp_def, covers,
      Bool.decide_and, Bool.decide_eq_true]
    rfl
  rw [getForwarder, wildCardMatch, search]
  cases self.table.find? fun entry => covers entry.1 path with
  | none =>
      simp only [answer, Option.map_none, ok_bind]
      cases self.table.find? (·.1 == path) <;> rfl
  | some entry =>
      simp only [answer, Option.map_some]
      cases self.atKey (cString entry.1) <;> rfl

theorem answer_perm {self other : RequestForwarder} (shuffled : other.table.Perm self.table)
    (distinct : (self.table.map Prod.fst).Nodup)
    (default : other.defaultForwarder = self.defaultForwarder) (path : CppString) :
    other.answer path = self.answer path := by
  funext first
  have lookup := Selection.find?_key_perm shuffled distinct
  cases first <;> simp only [answer, atKey, lookup, default]

theorem atKey_of_mem {self : RequestForwarder} {key : CppString}
    (member : key ∈ self.table.map Prod.fst) :
    ∃ forwarder, self.atKey key = .ok ⟨.route key, forwarder⟩ := by
  obtain ⟨entry, stored, rfl⟩ := List.mem_map.mp member
  obtain ⟨found, search⟩ := Option.isSome_iff_exists.mp
    (List.find?_isSome (p := (·.1 == entry.1)).mpr ⟨entry, stored, beq_self_eq_true _⟩)
  have same : found.1 = entry.1 := by simpa using List.find?_some search
  exact ⟨found.2, by simp only [atKey, search, same]⟩

theorem mem_of_atKey {self : RequestForwarder} {key : CppString} {pointer : Pointer}
    (found : self.atKey key = .ok pointer) :
    key ∈ self.table.map Prod.fst ∧ pointer.owner = .route key := by
  unfold atKey at found
  split at found
  · rename_i entry search
    have same : entry.1 = key := by simpa using List.find?_some search
    cases found
    exact ⟨same ▸ List.mem_map_of_mem (List.mem_of_find?_eq_some search), same ▸ rfl⟩
  · cases found

theorem foldl_addEntry_table (routdef : List RouteEntry) {self : RequestForwarder}
    (distinct : (routdef.map RouteEntry.path).Nodup)
    (fresh : ∀ r ∈ routdef, ∀ entry ∈ self.table, entry.1 ≠ r.path) :
    (routdef.foldl addEntry self).table =
      self.table ++ routdef.filterMap fun r => r.forwarder.map (r.path, ·) := by
  induction routdef generalizing self with
  | nil => simp
  | cons r rest ih =>
      obtain ⟨absent, distinct⟩ := List.nodup_cons.mp distinct
      have later : ∀ other ∈ rest, ∀ entry ∈ self.table, entry.1 ≠ other.path :=
        fun other member => fresh other (by simp [member])
      cases known : r.forwarder with
      | none =>
          have kept : self.addEntry r = self := by simp [addEntry, known]
          rw [List.foldl_cons, kept, ih distinct later]
          simp [known]
      | some forwarder =>
          have added : (self.addEntry r).table = self.table ++ [(r.path, forwarder)] := by
            have append := @OrderedMap.insert_of_fresh _ _ _ _ forwarder _ (fresh r (by simp))
            unfold addEntry
            cases r.isDefault <;> simpa [known, addRoute] using append
          rw [List.foldl_cons, ih distinct, added]
          · simp [known]
          · intro other member entry stored
            rw [added, List.mem_append, List.mem_singleton] at stored
            rcases stored with old | rfl
            · exact later other member entry old
            · exact fun same => absent (List.mem_map.mpr ⟨other, member, same.symm⟩)

theorem foldl_addEntry_default (routdef : List RouteEntry) (self : RequestForwarder) :
    (routdef.foldl addEntry self).defaultForwarder =
      ((routdef.filterMap fun r => if r.isDefault then r.forwarder else none).getLast?).or
        self.defaultForwarder := by
  induction routdef generalizing self with
  | nil => simp
  | cons r rest ih =>
      rw [List.foldl_cons, ih]
      cases known : r.forwarder with
      | none => cases flagged : r.isDefault <;> simp [addEntry, known, flagged]
      | some forwarder =>
          cases flagged : r.isDefault
          · simp [addEntry, known, flagged, addRoute]
          · simp [addEntry, known, flagged, List.getLast?_cons]

/-- The constructor read `routdef`, and the table is iterated in any order. -/
structure LoadedFrom (routdef : List RouteEntry) (router : RequestForwarder) : Prop where
  table : router.table.Perm (load routdef).table
  default : router.defaultForwarder = (load routdef).defaultForwarder

end RequestForwarder

/-- The elements of a configuration, whatever order they are listed in. -/
structure RouteSet where
  entries : List RouteEntry
  distinct : (entries.map RouteEntry.path).Nodup
  oneDefault : entries.countP RouteEntry.isDefault ≤ 1

namespace RouteSet

variable (routes : RouteSet)

def keys : List CppString :=
  (routes.entries.filter (·.forwarder.isSome)).map RouteEntry.path

def covering (path : CppString) : List CppString :=
  routes.keys.filter (covers · path)

theorem load_table {listing : List RouteEntry} (distinct : (listing.map RouteEntry.path).Nodup) :
    (RequestForwarder.load listing).table =
      listing.filterMap fun r => r.forwarder.map (r.path, ·) := by
  rw [RequestForwarder.load, RequestForwarder.foldl_addEntry_table listing distinct (by simp)]
  exact List.nil_append _

theorem keys_eq : (RequestForwarder.load routes.entries).table.map Prod.fst = routes.keys := by
  rw [load_table routes.distinct, keys]
  generalize routes.entries = entries
  induction entries with
  | nil => rfl
  | cons r rest ih => cases known : r.forwarder <;> simp [known, ih]

theorem keys_distinct : routes.keys.Nodup :=
  List.Nodup.sublist (List.filter_sublist.map _) routes.distinct

theorem load_perm {listing : List RouteEntry} (listed : listing.Perm routes.entries) :
    (RequestForwarder.load listing).table.Perm (RequestForwarder.load routes.entries).table ∧
      (RequestForwarder.load listing).defaultForwarder =
        (RequestForwarder.load routes.entries).defaultForwarder := by
  refine ⟨?_, ?_⟩
  · rw [load_table routes.distinct, load_table ((listed.map _).nodup_iff.mpr routes.distinct)]
    exact listed.filterMap _
  · have defaults := listed.filterMap fun r => if r.isDefault then r.forwarder else none
    have few : (routes.entries.filterMap fun r =>
        if r.isDefault then r.forwarder else none).length ≤ 1 := by
      rw [List.length_filterMap_eq_countP]
      refine Nat.le_trans (List.countP_mono_left fun r _ flagged => ?_) routes.oneDefault
      cases default : r.isDefault <;> simp [default] at flagged ⊢
    simp only [RequestForwarder.load, RequestForwarder.foldl_addEntry_default]
    generalize routes.entries.filterMap _ = ours at defaults few
    match ours with
    | [] => rw [List.perm_nil.mp defaults]
    | [default] => rw [List.perm_singleton.mp defaults]

/-- Over all listings and all iteration orders, a property of the result is one
of the answers for the first covering entry. -/
theorem forall_orders_iff (path : CppString) {P : Except Fault (Option Pointer) → Prop} :
    let loaded := RequestForwarder.load routes.entries
    (∀ listing router, listing.Perm routes.entries → RequestForwarder.LoadedFrom listing router →
        P (router.getForwarder path)) ↔
      ((∀ entry ∈ loaded.table, covers entry.1 path = false) → P (loaded.answer path none)) ∧
        ∀ entry ∈ loaded.table, covers entry.1 path → P (loaded.answer path (some entry)) := by
  intro loaded
  have distinct : (loaded.table.map Prod.fst).Nodup := routes.keys_eq ▸ routes.keys_distinct
  rw [← @Selection.forall_order_find? _ _ (fun entry => covers entry.1 path)
    fun first => P (loaded.answer path first)]
  constructor
  · intro every order shuffled
    let router : RequestForwarder := { loaded with table := order }
    have here := every routes.entries router (.refl _) ⟨shuffled, rfl⟩
    have permuted : router.table.Perm loaded.table := shuffled
    have default : router.defaultForwarder = loaded.defaultForwarder := rfl
    have same : router.answer path = loaded.answer path :=
      RequestForwarder.answer_perm permuted distinct default path
    rwa [RequestForwarder.getForwarder_eq_answer, same] at here
  · intro every listing router listed read
    obtain ⟨sameTable, sameDefault⟩ := routes.load_perm listed
    have shuffled : router.table.Perm loaded.table := read.table.trans sameTable
    have same : router.answer path = loaded.answer path :=
      RequestForwarder.answer_perm shuffled distinct (read.default.trans sameDefault) path
    rw [RequestForwarder.getForwarder_eq_answer, same]
    exact every router.table shuffled

end RouteSet

/-- Without NULs in the paths, that all covering routes lead to one stored route
means that there is at most one. -/
theorem RouteSet.leads_to_one_iff (routes : RouteSet) (noNul : ∀ key ∈ routes.keys, '\x00' ∉ key)
    (path : CppString) :
    (∀ a ∈ routes.covering path, cString a ∈ routes.keys ∧
        ∀ b ∈ routes.covering path, cString a = cString b) ↔
      (routes.covering path).length ≤ 1 := by
  have plain : ∀ key ∈ routes.covering path, cString key = key ∧ key ∈ routes.keys := by
    intro key member
    have stored := List.mem_of_mem_filter member
    exact ⟨cString_of_noNul (noNul key stored), stored⟩
  have distinct : (routes.covering path).Nodup := routes.keys_distinct.filter _
  generalize routes.covering path = keys at plain distinct
  match keys with
  | [] => simp
  | [key] =>
      obtain ⟨whole, stored⟩ := plain key (by simp)
      simpa [whole] using stored
  | first :: second :: rest =>
      have differ : first ≠ second := fun same => (List.nodup_cons.mp distinct).1 (by simp [same])
      have all := (plain first (by simp)).1
      have all' := (plain second (by simp)).1
      refine iff_of_false (fun agree => differ ?_) (by simp)
      rw [← all, ← all']
      exact (agree first (by simp)).2 second (by simp)

/-- The forwarder for `path` is the same for every listing of the routes and
every iteration order of the table exactly if all wildcard routes that cover
`path` lead to one stored route. -/
theorem RouteSet.routing_deterministic_iff (routes : RouteSet) (path : CppString) :
    (∃ answer, ∀ listing router, listing.Perm routes.entries →
        RequestForwarder.LoadedFrom listing router → router.getForwarder path = .ok answer) ↔
      ∀ a ∈ routes.covering path, cString a ∈ routes.keys ∧
        ∀ b ∈ routes.covering path, cString a = cString b := by
  have answers := fun answer : Option Pointer =>
    @forall_orders_iff routes path fun result => result = .ok answer
  simp only [answers]
  have covered : ∀ {key : CppString}, key ∈ routes.covering path ↔
      ∃ entry ∈ (RequestForwarder.load routes.entries).table, covers entry.1 path ∧ entry.1 = key := by
    intro key
    rw [covering, ← keys_eq, List.mem_filter, List.mem_map]
    constructor
    · intro selected
      obtain ⟨⟨entry, stored, rfl⟩, covering⟩ := selected
      exact ⟨entry, stored, covering, rfl⟩
    · intro selected
      obtain ⟨entry, stored, covering, rfl⟩ := selected
      exact ⟨⟨entry, stored, rfl⟩, covering⟩
  rw [← keys_eq]
  generalize RequestForwarder.load routes.entries = loaded at covered ⊢
  constructor
  · intro constant
    obtain ⟨answer, -, every⟩ := constant
    have leads : ∀ key ∈ routes.covering path, ∃ pointer,
        loaded.atKey (cString key) = .ok pointer ∧ answer = some pointer := by
      intro key member
      obtain ⟨entry, stored, covering, rfl⟩ := covered.mp member
      have here := every entry stored covering
      simp only [RequestForwarder.answer] at here
      cases found : loaded.atKey (cString entry.1) with
      | error fault =>
          rw [found] at here
          cases here
      | ok pointer =>
          rw [found] at here
          cases here
          exact ⟨pointer, rfl, rfl⟩
    intro a member
    obtain ⟨pointer, found, rfl⟩ := leads a member
    obtain ⟨stored, owner⟩ := RequestForwarder.mem_of_atKey found
    refine ⟨stored, fun b member' => ?_⟩
    obtain ⟨pointer', found', same⟩ := leads b member'
    obtain ⟨-, owner'⟩ := RequestForwarder.mem_of_atKey found'
    rw [Option.some.inj same, owner'] at owner
    exact (Owner.route.inj owner).symm
  · intro agree
    by_cases some : ∃ entry ∈ loaded.table, covers entry.1 path
    · obtain ⟨entry, stored, covering⟩ := some
      obtain ⟨leads, same⟩ := agree entry.1 (covered.mpr ⟨entry, stored, covering, rfl⟩)
      obtain ⟨forwarder, found⟩ := RequestForwarder.atKey_of_mem leads
      refine ⟨.some ⟨.route (cString entry.1), forwarder⟩, fun none => ?_, ?_⟩
      · rw [none entry stored] at covering
        cases covering
      · intro other stored' covering'
        have key := same other.1 (covered.mpr ⟨other, stored', covering', rfl⟩)
        rw [RequestForwarder.answer, ← key, found]
        rfl
    · refine ⟨_, fun _ => rfl, fun entry stored covering => ?_⟩
      exact absurd ⟨entry, stored, covering⟩ some

theorem overlapping_wildcards_depend_on_order :
    let wide : RouteEntry := { path := "/*".toList, ip := "localhost".toList, port := "80".toList }
    let narrow : RouteEntry :=
      { path := "/file/*".toList, ip := "localhost".toList, port := "8082".toList }
    let routes : RouteSet := ⟨[wide, narrow], by decide, by decide⟩
    ¬ ∃ answer, ∀ listing router, listing.Perm routes.entries →
        RequestForwarder.LoadedFrom listing router →
        router.getForwarder "/file/a".toList = .ok answer := by
  intro wide narrow routes constant
  obtain ⟨answer, every⟩ := constant
  let loaded := RequestForwarder.load [wide, narrow]
  let mirrored : RequestForwarder := { loaded with table := loaded.table.reverse }
  have inOrder := every [wide, narrow] loaded (.refl _) ⟨.refl _, rfl⟩
  have reversed := every [wide, narrow] mirrored (.refl _) ⟨List.reverse_perm _, rfl⟩
  have differ : loaded.getForwarder "/file/a".toList ≠ mirrored.getForwarder "/file/a".toList := by
    decide
  exact differ (inOrder.trans reversed.symm)

end ChaiBeast.Proxy
