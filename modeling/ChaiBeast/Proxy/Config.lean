import ChaiBeast.Proxy.LoadedTable

namespace ChaiBeast.Proxy

/-! The constructor of `RequestForwarder`: the table is built while the parsed
configuration is read, element by element. -/

/-- `nlohmann::json`.  An object lists its members as its `std::map` does. -/
inductive Json where
  | null
  | boolean (value : Bool)
  | number (text : CppString)
  | string (value : CppString)
  | array (elements : List Json)
  | object (members : List (CppString × Json))

/-- `type_error`, by its id and the `type_name()` it reports. -/
structure TypeError where
  id : Nat
  typeName : CppString
deriving Repr, DecidableEq

namespace Json

def typeName : Json → CppString
  | null => "null".toList
  | boolean _ => "boolean".toList
  | number _ => "number".toList
  | string _ => "string".toList
  | array _ => "array".toList
  | object _ => "object".toList

/-- What a range-based `for` runs over.  A scalar is a range of itself. -/
def elements : Json → List Json
  | null => []
  | array elements => elements
  | object members => members.map Prod.snd
  | scalar => [scalar]

/-- `r[key]`.  A null value becomes an object, and a member that is missing a
null one. -/
def member (key : CppString) : Json → Except TypeError Json
  | null => .ok null
  | object members => .ok ((members.lookup key).getD null)
  | other => .error ⟨305, other.typeName⟩

def isNull : Json → Bool
  | null => true
  | _ => false

def getString : Json → Except TypeError CppString
  | string value => .ok value
  | other => .error ⟨302, other.typeName⟩

def getBool : Json → Except TypeError Bool
  | boolean value => .ok value
  | other => .error ⟨302, other.typeName⟩

def stringMember (r : Json) (key : CppString) : Except TypeError CppString := do
  let value ← r.member key
  value.getString

end Json

namespace RequestForwarder

/-- The two members are arguments of one call, which C++ may evaluate in either order.
Which one an exception names is not settled where both are at fault. -/
def makeForwader (maker : ForwardMaker) (r : Json) : Except TypeError AbstractForwarder := do
  let ip ← r.stringMember "ip".toList
  let port ← r.stringMember "port".toList
  return ⟨maker, ip, port⟩

def forwarderType (r : Json) : Except TypeError CppString := do
  let type ← r.member "type".toList
  if type.isNull then return "secure_flexible_forwarder".toList
  type.getString

def isDefault (r : Json) : Except TypeError Bool := do
  let default ← r.member "default".toList
  if default.isNull then return false
  default.getBool

/-- The body of the loop. -/
def addElement (self : RequestForwarder) (r : Json) : Except TypeError RequestForwarder := do
  let type ← forwarderType r
  match forwardMaker type with
  | none => return self
  | some maker =>
      let path ← r.stringMember "path".toList
      let route ← makeForwader maker r
      let self := self.addRoute path route
      if ← isDefault r then
        let route ← makeForwader maker r
        return { self with defaultForwarder := some route }
      return self

def ofJson (routdef : Json) : Except TypeError RequestForwarder :=
  routdef.elements.foldlM addElement {}

end RequestForwarder

/-- An element whose type no maker is listed for.  Nothing else of it is read. -/
def Json.Skipped (r : Json) : Prop :=
  ∃ type, r.member "type".toList = .ok (.string type) ∧ forwardMaker type = none

/-- An element that reads as `entry`. -/
structure Json.Describes (r : Json) (entry : RouteEntry) : Prop where
  type : r.member "type".toList = .ok (entry.type.elim .null .string)
  known : entry.forwarder.isSome
  path : r.member "path".toList = .ok (.string entry.path)
  ip : r.member "ip".toList = .ok (.string entry.ip)
  port : r.member "port".toList = .ok (.string entry.port)
  default : r.member "default".toList = .ok (entry.default.elim .null .boolean)

/-- What the loader makes of an element, if it accepts it. -/
def Json.Reads (r : Json) : Option RouteEntry → Prop
  | some entry => r.Describes entry
  | none => r.Skipped

theorem Json.getString_ok_iff {json : Json} {value : CppString} :
    json.getString = .ok value ↔ json = .string value := by
  cases json <;> simp [getString]

theorem Json.stringMember_ok_iff {r : Json} {key value : CppString} :
    r.stringMember key = .ok value ↔ r.member key = .ok (.string value) := by
  simp [stringMember, bind_ok_iff, getString_ok_iff]

namespace RequestForwarder

variable {self next : RequestForwarder} {r : Json}

theorem makeForwader_ok_iff {maker : ForwardMaker} {forwarder : AbstractForwarder} :
    makeForwader maker r = .ok forwarder ↔
      ∃ ip port, r.member "ip".toList = .ok (.string ip) ∧
        r.member "port".toList = .ok (.string port) ∧ forwarder = ⟨maker, ip, port⟩ := by
  simp only [makeForwader, bind_ok_iff, Json.stringMember_ok_iff]
  constructor
  · rintro ⟨ip, readsIp, port, readsPort, same⟩
    cases same
    exact ⟨ip, port, readsIp, readsPort, rfl⟩
  · rintro ⟨ip, port, readsIp, readsPort, rfl⟩
    exact ⟨ip, readsIp, port, readsPort, rfl⟩

theorem forwarderType_ok_iff {type : CppString} :
    forwarderType r = .ok type ↔ ∃ given : Option CppString,
      r.member "type".toList = .ok (given.elim .null .string) ∧
        type = given.getD "secure_flexible_forwarder".toList := by
  simp only [forwarderType, bind_ok_iff]
  constructor
  · rintro ⟨value, reads, same⟩
    cases value with
    | null =>
        cases same
        exact ⟨none, reads, rfl⟩
    | string value =>
        cases same
        exact ⟨some type, reads, rfl⟩
    | _ => cases same
  · rintro ⟨given, reads, rfl⟩
    cases given <;> exact ⟨_, reads, rfl⟩

theorem isDefault_ok_iff {value : Bool} :
    isDefault r = .ok value ↔ ∃ given : Option Bool,
      r.member "default".toList = .ok (given.elim .null .boolean) ∧ value = (given == some true) := by
  simp only [isDefault, bind_ok_iff]
  constructor
  · rintro ⟨read, reads, same⟩
    cases read with
    | null =>
        cases same
        exact ⟨none, reads, rfl⟩
    | boolean read =>
        cases same
        exact ⟨some value, reads, by simp⟩
    | _ => cases same
  · rintro ⟨given, reads, rfl⟩
    cases given with
    | none => exact ⟨_, reads, rfl⟩
    | some given => exact ⟨_, reads, by simp [Json.isNull, Json.getBool]⟩

theorem addElement_of_known {type : CppString} {maker : ForwardMaker}
    (typed : forwarderType r = .ok type) (listed : forwardMaker type = some maker) :
    addElement self r = .ok next ↔ ∃ path route default,
      r.member "path".toList = .ok (.string path) ∧ makeForwader maker r = .ok route ∧
      isDefault r = .ok default ∧
      next = if default then { self.addRoute path route with defaultForwarder := some route }
        else self.addRoute path route := by
  constructor
  · intro added
    obtain ⟨_, same, added⟩ := bind_ok_iff.mp added
    cases typed.symm.trans same
    simp only [listed] at added
    obtain ⟨path, readsPath, added⟩ := bind_ok_iff.mp added
    obtain ⟨route, made, added⟩ := bind_ok_iff.mp added
    obtain ⟨default, readsDefault, added⟩ := bind_ok_iff.mp added
    refine ⟨path, route, default, Json.stringMember_ok_iff.mp readsPath, made, readsDefault, ?_⟩
    cases default with
    | false =>
        cases added
        rfl
    | true =>
        obtain ⟨_, again, added⟩ := bind_ok_iff.mp added
        cases made.symm.trans again
        cases added
        rfl
  · rintro ⟨path, route, default, readsPath, made, readsDefault, rfl⟩
    refine bind_ok_iff.mpr ⟨type, typed, ?_⟩
    simp only [listed]
    refine bind_ok_iff.mpr ⟨path, Json.stringMember_ok_iff.mpr readsPath, ?_⟩
    refine bind_ok_iff.mpr ⟨route, made, bind_ok_iff.mpr ⟨default, readsDefault, ?_⟩⟩
    cases default with
    | false => rfl
    | true => exact bind_ok_iff.mpr ⟨route, made, rfl⟩

theorem addElement_of_skipped (skipped : r.Skipped) : self.addElement r = .ok self := by
  obtain ⟨type, reads, unlisted⟩ := skipped
  refine bind_ok_iff.mpr ⟨type, forwarderType_ok_iff.mpr ⟨some type, reads, rfl⟩, ?_⟩
  simp only [unlisted]
  rfl

theorem addEntry_of_maker {entry : RouteEntry} {maker : ForwardMaker}
    (listed : forwardMaker entry.forwarderType = some maker) :
    self.addEntry entry =
      if entry.default == some true then
        { self.addRoute entry.path ⟨maker, entry.ip, entry.port⟩ with
          defaultForwarder := some ⟨maker, entry.ip, entry.port⟩ }
      else self.addRoute entry.path ⟨maker, entry.ip, entry.port⟩ := by
  simp only [addEntry, RouteEntry.forwarder, listed, Option.map_some]
  rfl

theorem addElement_ok_iff : self.addElement r = .ok next ↔
    r.Skipped ∧ next = self ∨ ∃ entry, r.Describes entry ∧ next = self.addEntry entry := by
  constructor
  · intro added
    obtain ⟨type, typed, -⟩ := bind_ok_iff.mp added
    obtain ⟨given, readsType, rfl⟩ := forwarderType_ok_iff.mp typed
    cases listed : forwardMaker (given.getD "secure_flexible_forwarder".toList) with
    | none =>
        cases given with
        | none => exact absurd listed (by decide)
        | some given =>
            have skipped : r.Skipped := ⟨given, readsType, listed⟩
            rw [addElement_of_skipped skipped, Except.ok.injEq] at added
            exact .inl ⟨skipped, added.symm⟩
    | some maker =>
        obtain ⟨path, route, default, readsPath, made, readsDefault, rfl⟩ :=
          (addElement_of_known typed listed).mp added
        obtain ⟨ip, port, readsIp, readsPort, rfl⟩ := makeForwader_ok_iff.mp made
        obtain ⟨flag, readsFlag, rfl⟩ := isDefault_ok_iff.mp readsDefault
        let entry : RouteEntry := ⟨path, ip, port, given, flag⟩
        have typed : forwardMaker entry.forwarderType = some maker := listed
        have known : entry.forwarder.isSome := by simp [RouteEntry.forwarder, typed]
        exact .inr ⟨entry, ⟨readsType, known, readsPath, readsIp, readsPort, readsFlag⟩,
          (addEntry_of_maker typed).symm⟩
  · rintro (⟨skipped, rfl⟩ | ⟨entry, described, rfl⟩)
    · exact addElement_of_skipped skipped
    · obtain ⟨maker, listed⟩ : ∃ maker, forwardMaker entry.forwarderType = some maker := by
        simpa [RouteEntry.forwarder, Option.isSome_iff_exists] using described.known
      have typed := forwarderType_ok_iff.mpr ⟨entry.type, described.type, rfl⟩
      rw [addEntry_of_maker listed, addElement_of_known typed listed]
      exact ⟨_, _, _, described.path, makeForwader_ok_iff.mpr ⟨_, _, described.ip, described.port, rfl⟩,
        isDefault_ok_iff.mpr ⟨_, described.default, rfl⟩, rfl⟩

theorem addElement_ok_iff_reads : self.addElement r = .ok next ↔
    ∃ reading, r.Reads reading ∧ next = reading.toList.foldl addEntry self := by
  rw [addElement_ok_iff]
  constructor
  · rintro (⟨skipped, rfl⟩ | ⟨entry, described, rfl⟩)
    · exact ⟨none, skipped, rfl⟩
    · exact ⟨some entry, described, rfl⟩
  · rintro ⟨reading, reads, rfl⟩
    cases reading with
    | none => exact .inl ⟨reads, rfl⟩
    | some entry => exact .inr ⟨entry, reads, rfl⟩

theorem foldlM_addElement_ok_iff {elements : List Json} :
    elements.foldlM addElement self = .ok next ↔ ∃ readings, List.Forall₂ Json.Reads elements readings ∧
      next = readings.reduceOption.foldl addEntry self := by
  induction elements generalizing self with
  | nil =>
      constructor
      · intro loaded
        cases loaded
        exact ⟨[], .nil, rfl⟩
      · rintro ⟨_, all, rfl⟩
        cases all
        rfl
  | cons r rest ih =>
      rw [List.foldlM_cons, bind_ok_iff]
      constructor
      · rintro ⟨middle, added, loaded⟩
        obtain ⟨reading, reads, rfl⟩ := addElement_ok_iff_reads.mp added
        obtain ⟨readings, all, rfl⟩ := ih.mp loaded
        refine ⟨reading :: readings, .cons reads all, ?_⟩
        cases reading <;> rfl
      · rintro ⟨_, all, rfl⟩
        cases all with
        | @cons _ reading _ readings reads all =>
            refine ⟨_, addElement_ok_iff_reads.mpr ⟨reading, reads, rfl⟩, ?_⟩
            refine ih.mpr ⟨readings, all, ?_⟩
            cases reading <;> rfl

/-- A configuration is accepted exactly if every element that is not skipped
reads as an entry, and the table is then the one of these entries.  All that an
element holds besides goes unread. -/
theorem ofJson_ok_iff (routdef : Json) (router : RequestForwarder) :
    ofJson routdef = .ok router ↔ ∃ readings, List.Forall₂ Json.Reads routdef.elements readings ∧
      router = load readings.reduceOption :=
  foldlM_addElement_ok_iff

end RequestForwarder

/-- The element of a configuration that is written for an entry. -/
def RouteEntry.toJson (entry : RouteEntry) : Json :=
  .object ((entry.default.map fun value => ("default".toList, .boolean value)).toList ++
    [("ip".toList, .string entry.ip), ("path".toList, .string entry.path),
      ("port".toList, .string entry.port)] ++
    (entry.type.map fun value => ("type".toList, .string value)).toList)

theorem RouteEntry.toJson_reads (entry : RouteEntry) :
    entry.toJson.Reads (Option.guard (·.forwarder.isSome) entry) := by
  have members : entry.toJson.member "type".toList = .ok (entry.type.elim .null .string) ∧
      entry.toJson.member "path".toList = .ok (.string entry.path) ∧
      entry.toJson.member "ip".toList = .ok (.string entry.ip) ∧
      entry.toJson.member "port".toList = .ok (.string entry.port) ∧
      entry.toJson.member "default".toList = .ok (entry.default.elim .null .boolean) := by
    obtain ⟨path, ip, port, type, default⟩ := entry
    cases type <;> cases default <;> exact ⟨rfl, rfl, rfl, rfl, rfl⟩
  obtain ⟨type, path, ip, port, default⟩ := members
  rw [Option.guard]
  split
  case isTrue known => exact ⟨type, known, path, ip, port, default⟩
  case isFalse unknown =>
    have unlisted : forwardMaker (entry.type.getD "secure_flexible_forwarder".toList) = none := by
      simpa [RouteEntry.forwarder, RouteEntry.forwarderType] using unknown
    cases given : entry.type with
    | none =>
        rw [given] at unlisted
        exact absurd unlisted (by decide)
    | some value =>
        rw [given] at unlisted type
        exact ⟨value, type, unlisted⟩

/-- Loading undoes writing: from the elements written for any entries the loader
builds the table of these entries, and those of an unknown type are no error. -/
theorem ofJson_toJson (entries : List RouteEntry) :
    RequestForwarder.ofJson (.array (entries.map RouteEntry.toJson)) = .ok (.load entries) := by
  let readings := entries.map (Option.guard fun entry => entry.forwarder.isSome)
  have all : List.Forall₂ Json.Reads (entries.map RouteEntry.toJson) readings := by
    induction entries with
    | nil => exact .nil
    | cons entry rest ih => exact .cons entry.toJson_reads ih
  have kept : readings.reduceOption = entries.filter (·.forwarder.isSome) := by
    change readings.filterMap id = _
    rw [List.filterMap_map, Function.id_comp, List.filterMap_eq_filter]
  rw [RequestForwarder.load_known, ← kept]
  exact RequestForwarder.foldlM_addElement_ok_iff.mpr ⟨readings, all, rfl⟩

end ChaiBeast.Proxy
