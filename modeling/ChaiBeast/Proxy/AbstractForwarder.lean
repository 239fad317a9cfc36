import ChaiBeast.Proxy.RequestForwarder
import ChaiBeast.Proxy.Transparency

namespace ChaiBeast.Proxy

open Http

/-! `GenericForwarderImpl` of abstractforwarder.hpp with its two body readers,
and the call of a forwarder of any kind. -/

/-- `readMessage` reads header and body of a whole message, unless the body is
larger than its limit. -/
structure ForwarderCalls (σ : Type) extends Calls σ where
  readMessage (bodyLimit : Nat) : σ → (Header × Bytes) × σ × ErrorCode

structure StreamBuilders (σ : Type) where
  tcpSocketBuilder : StreamBuilder σ
  sslStreamBuilder : StreamBuilder σ

/-- The limit that Beast sets for the body of a response. -/
def defaultBodyLimit : Nat := 8 * 1024 * 1024

namespace GenericForwarderImpl

variable {σ : Type} (calls : ForwarderCalls σ)

/-- `DynamicBodyReader::read`. -/
def dynamicBodyReader (stream : σ) : Except Fault (VariantResponse × σ × ErrorCode) :=
  let (res, stream, ec) := calls.readMessage defaultBodyLimit stream
  .ok (.dynamicbody res.1 res.2, stream, ec)

/-- `FileBodyReader::read`. -/
def fileBodyReader (stream : σ) : Except Fault (VariantResponse × σ × ErrorCode) := do
  match calls.openWrite "tmp".toList with
  | some message => return (.filebody ⟨200, 11, []⟩ ⟨[], 0⟩, stream, some message)
  | none =>
      let (tresp, stream, failure) := calls.readMessage (2 ^ 64 - 1) stream
      throwing failure
      let (body, ec) := calls.seek ⟨tresp.2, tresp.2.length⟩ 0
      return (.filebody tresp.1 body, stream, ec)

/-- `operator()`, with the body reader of the class. -/
def call (bodyReader : σ → Except Fault (VariantResponse × σ × ErrorCode)) (builder : StreamBuilder σ)
    (target port : CppString) (requestVar : Routing.VariantRequest) : Except Fault VariantResponse := do
  let forwarderStream ← builder.beginStream target port
  let forwarderStream ← calls.write requestVar forwarderStream
  let (resp, forwarderStream, ec) ← bodyReader forwarderStream
  CommonForwarderImpl.checkFail ec
  let _ec := builder.endStream forwarderStream ec
  return resp

end GenericForwarderImpl

/-- What one call of a forwarder meets: its upstream, the operations on the stream
to it, and the name that `getLocalTime()` gives to a temporary file. -/
structure Environment (σ : Type) where
  calls : ForwarderCalls σ
  builders : StreamBuilders σ
  tempFileName : CppString

section Kinds

variable {σ : Type} (environment : Environment σ)

def ForwardMaker.builder (builders : StreamBuilders σ) : ForwardMaker → StreamBuilder σ
  | .fileForwarder | .genericForwarder | .flexibleForwarder => builders.tcpSocketBuilder
  | .secureFileForwarder | .secureGenericForwarder | .secureFlexibleForwarder =>
      builders.sslStreamBuilder

def ForwardMaker.read : ForwardMaker → σ → Except Fault (VariantResponse × σ × ErrorCode)
  | .fileForwarder | .secureFileForwarder => GenericForwarderImpl.fileBodyReader environment.calls
  | .genericForwarder | .secureGenericForwarder =>
      GenericForwarderImpl.dynamicBodyReader environment.calls
  | .flexibleForwarder | .secureFlexibleForwarder =>
      CommonForwarderImpl.read environment.calls.toCalls environment.tempFileName

namespace AbstractForwarder

variable (self : AbstractForwarder)

def beginStream : Except Fault σ :=
  (self.maker.builder environment.builders).beginStream self.target self.port

/-- The virtual `operator()` of the forwarder that a maker made. -/
def call (requestVar : Routing.VariantRequest) : Except Fault VariantResponse :=
  let builder := self.maker.builder environment.builders
  match self.maker with
  | .flexibleForwarder | .secureFlexibleForwarder =>
      CommonForwarderImpl.call environment.calls.toCalls builder self.target self.port
        environment.tempFileName requestVar
  | maker =>
      GenericForwarderImpl.call environment.calls (maker.read environment) builder self.target
        self.port requestVar

end AbstractForwarder

end Kinds

def ForwardMaker.flexible : ForwardMaker → Bool
  | .flexibleForwarder | .secureFlexibleForwarder => true
  | _ => false

section

variable {σ : Type} {environment : Environment σ} {self : AbstractForwarder}
  {requestVar : Routing.VariantRequest} {stream connected written after last : σ}
  {response : Response} {parser : Parser}

theorem AbstractForwarder.call_eq :
    self.call environment requestVar =
      GenericForwarderImpl.call environment.calls (self.maker.read environment)
        (self.maker.builder environment.builders) self.target self.port requestVar := by
  obtain ⟨maker, target, port⟩ := self
  cases maker <;> rfl

theorem AbstractForwarder.call_of_unconnected {fault : Fault}
    (failed : self.beginStream environment = .error fault) :
    self.call environment requestVar = .error fault := by
  rw [beginStream] at failed
  simp only [call_eq, GenericForwarderImpl.call, failed, error_bind]

theorem AbstractForwarder.call_of_unwritten {fault : Fault}
    (begun : self.beginStream environment = .ok connected)
    (failed : environment.calls.write requestVar connected = .error fault) :
    self.call environment requestVar = .error fault := by
  rw [beginStream] at begun
  simp only [call_eq, GenericForwarderImpl.call, begun, failed, ok_bind, error_bind]

/-- What is left of a call once the request is written. -/
theorem AbstractForwarder.call_of_written (begun : self.beginStream environment = .ok connected)
    (wrote : environment.calls.write requestVar connected = .ok written) :
    self.call environment requestVar = (do
      let (resp, _, ec) ← self.maker.read environment written
      CommonForwarderImpl.checkFail ec
      return resp) := by
  rw [beginStream] at begun
  simp only [call_eq, GenericForwarderImpl.call, begun, wrote, ok_bind]

theorem AbstractForwarder.read_of_flexible (flexible : self.maker.flexible = true) :
    self.maker.read environment =
      CommonForwarderImpl.read environment.calls.toCalls environment.tempFileName := by
  obtain ⟨maker, target, port⟩ := self
  cases maker with
  | flexibleForwarder | secureFlexibleForwarder => rfl
  | fileForwarder | genericForwarder | secureFileForwarder | secureGenericForwarder => cases flexible

/-! ## Calls that stay defined -/

section Definedness

theorem throwing_caught (ec : ErrorCode) : Caught (throwing ec) := by
  cases ec with
  | none => exact caught_ok ()
  | some message => exact caught_error.mpr rfl

theorem checkFail_caught (ec : ErrorCode) : Caught (CommonForwarderImpl.checkFail ec) :=
  throwing_caught _

theorem CommonForwarderImpl.read_caught {calls : Calls σ} (tempFileName : CppString)
    (done : (calls.readHeader stream).1.isHeaderDone = true) :
    Caught (read calls tempFileName stream) := by
  rcases header : calls.readHeader stream with ⟨res0, rest, ec⟩
  rw [header] at done
  simp only [read, header, Parser.contentLength_of_done done, ok_bind]
  split
  case h_1 =>
    split
    · exact (checkFail_caught _).bind fun _ => caught_ok _
    · split
      · refine (checkFail_caught _).bind fun _ => (throwing_caught _).bind fun _ => ?_
        exact (checkFail_caught _).bind fun _ => caught_ok _
      · exact (checkFail_caught _).bind fun _ => caught_ok _
  case h_2 => exact caught_ok _

theorem CommonForwarderImpl.read_unread {calls : Calls σ} (tempFileName : CppString)
    (cut : (calls.readHeader stream).1.isHeaderDone ≠ true) :
    read calls tempFileName stream = .error .unreadHeader := by
  rcases header : calls.readHeader stream with ⟨res0, rest, ec⟩
  rw [header] at cut
  have unread : res0.contentLength = .error .unreadHeader := if_neg cut
  simp only [read, header, unread, error_bind]

theorem GenericForwarderImpl.fileBodyReader_caught (calls : ForwarderCalls σ) (stream : σ) :
    Caught (fileBodyReader calls stream) := by
  unfold fileBodyReader
  split
  · exact caught_ok _
  · exact (throwing_caught _).bind fun _ => caught_ok _

theorem ForwardMaker.read_caught {maker : ForwardMaker}
    (done : maker.flexible = true → (environment.calls.readHeader stream).1.isHeaderDone = true) :
    Caught (maker.read environment stream) := by
  match maker with
  | .fileForwarder | .secureFileForwarder =>
      exact GenericForwarderImpl.fileBodyReader_caught environment.calls stream
  | .genericForwarder | .secureGenericForwarder => exact caught_ok _
  | .flexibleForwarder | .secureFlexibleForwarder =>
      exact CommonForwarderImpl.read_caught environment.tempFileName (done rfl)

/-- Where a flexible forwarder comes to reading, it gets a whole header. -/
def AbstractForwarder.HeaderComes (environment : Environment σ) (self : AbstractForwarder)
    (requestVar : Routing.VariantRequest) : Prop :=
  self.maker.flexible = true → ∀ connected, self.beginStream environment = .ok connected →
    ∀ written, environment.calls.write requestVar connected = .ok written →
      (environment.calls.readHeader written).1.isHeaderDone = true

instance : Decidable (self.HeaderComes environment requestVar) :=
  inferInstanceAs (Decidable (_ = _ → ∀ _, _ = _ → ∀ _, _ = _ → _ = _))

theorem AbstractForwarder.headerComes_iff (begun : self.beginStream environment = .ok connected)
    (wrote : environment.calls.write requestVar connected = .ok written) :
    self.HeaderComes environment requestVar ↔
      (self.maker.flexible = true → (environment.calls.readHeader written).1.isHeaderDone = true) := by
  constructor
  · exact fun comes flexible => comes flexible connected begun written wrote
  · intro done flexible other same last taken
    cases begun.symm.trans same
    cases wrote.symm.trans taken
    exact done flexible

/-- Of its own, a forwarder adds one undefined operation to the calls that connect
and write: the question for the length behind a header that did not come. -/
theorem AbstractForwarder.call_caught_or (connects : Caught (self.beginStream environment))
    (writes : ∀ stream, Caught (environment.calls.write requestVar stream)) :
    self.HeaderComes environment requestVar ∧ Caught (self.call environment requestVar) ∨
      ¬ self.HeaderComes environment requestVar ∧
        self.call environment requestVar = .error .unreadHeader := by
  cases begun : self.beginStream environment with
  | error fault =>
      rw [begun] at connects
      rw [call_of_unconnected begun]
      refine .inl ⟨fun _ connected same => ?_, caught_error.mpr (caught_error.mp connects)⟩
      exact nomatch begun.symm.trans same
  | ok connected =>
      have writing := writes connected
      cases wrote : environment.calls.write requestVar connected with
      | error fault =>
          rw [wrote] at writing
          rw [call_of_unwritten begun wrote]
          refine .inl ⟨fun _ other same written taken => ?_, caught_error.mpr (caught_error.mp writing)⟩
          cases begun.symm.trans same
          exact nomatch wrote.symm.trans taken
      | ok written =>
          rw [headerComes_iff begun wrote, call_of_written begun wrote]
          by_cases done : self.maker.flexible = true →
              (environment.calls.readHeader written).1.isHeaderDone = true
          · refine .inl ⟨done, (ForwardMaker.read_caught done).bind fun read => ?_⟩
            exact (checkFail_caught read.2.2).bind fun _ => caught_ok _
          · obtain ⟨flexible, cut⟩ := Classical.not_imp.mp done
            refine .inr ⟨done, ?_⟩
            rw [read_of_flexible flexible, CommonForwarderImpl.read_unread _ cut]
            rfl

end Definedness

/-! ## The kinds compared -/

def bodyLimitExceeded : CppString := "body limit exceeded".toList

/-- A body announced over the limit makes Beast fail the header, which it has read. -/
def Response.headerError (response : Response) : ErrorCode :=
  if response.hasLength && defaultBodyLimit < response.body.length then some bodyLimitExceeded
  else none

/-- The upstream sends `response` whole, and Beast reads it in either way. -/
structure Delivers {σ : Type} (calls : ForwarderCalls σ) (stream : σ) (response : Response)
    (parser : Parser) (after last : σ) : Prop
    extends Arrives calls.toCalls response parser after last where
  readHeader : calls.readHeader stream = (parser, after, response.headerError)
  done : parser.isHeaderDone = true
  readMessage : ∀ limit, response.body.length ≤ limit →
    calls.readMessage limit stream = ((response.header, response.body), last, none)
  refused : ∀ limit, limit < response.body.length →
    (calls.readMessage limit stream).2.2 = some bodyLimitExceeded
  counted : response.body.length < 2 ^ 64
  plain : response.header.get "fileurl".toList = []

/-- A forwarder of this kind keeps the body out of the temporary files, which
all requests share. -/
def ForwardMaker.InMemory (parser : Parser) : ForwardMaker → Prop
  | .genericForwarder | .secureGenericForwarder => True
  | .fileForwarder | .secureFileForwarder => False
  | .flexibleForwarder | .secureFlexibleForwarder =>
      ∀ length ∈ parser.announced, length ≤ CommonForwarderImpl.threshold

/-- The temporary file of a forwarder of this kind takes the body. -/
def ForwardMaker.Stores (environment : Environment σ) : ForwardMaker → Prop
  | .genericForwarder | .secureGenericForwarder => True
  | .fileForwarder | .secureFileForwarder => environment.calls.Stores "tmp".toList
  | .flexibleForwarder | .secureFlexibleForwarder =>
      environment.calls.Stores (cString environment.tempFileName)

/-- A body of this size is within the limit of a forwarder of this kind: only the
generic ones leave it at the default. -/
def ForwardMaker.Admits (response : Response) : ForwardMaker → Prop
  | .genericForwarder | .secureGenericForwarder => response.body.length ≤ defaultBodyLimit
  | .fileForwarder | .secureFileForwarder | .flexibleForwarder | .secureFlexibleForwarder => True

instance (response : Response) (maker : ForwardMaker) : Decidable (maker.Admits response) :=
  match maker with
  | .genericForwarder | .secureGenericForwarder =>
      inferInstanceAs (Decidable (response.body.length ≤ defaultBodyLimit))
  | .fileForwarder | .secureFileForwarder | .flexibleForwarder | .secureFlexibleForwarder =>
      isTrue trivial

/-- The body that a forwarder of this kind hands on: the flexible one drops a
body without a length. -/
def ForwardMaker.bodyOf (maker : ForwardMaker) (response : Response) : Bytes :=
  if maker.flexible && !response.hasLength then [] else response.body

/-- What a forwarder of this kind hands on of `response`. -/
structure ForwardMaker.HandsOn (maker : ForwardMaker) (response : Response)
    (returned : VariantResponse) : Prop where
  status : (header returned).status = response.header.status
  fields : endToEnd (header returned) = endToEnd response.header
  body : payload returned = some (maker.bodyOf response)

/-- What a client sees of two responses is the same. -/
structure Alike (first second : VariantResponse) : Prop where
  status : (header first).status = (header second).status
  fields : endToEnd (header first) = endToEnd (header second)
  body : payload first = payload second

/-- What a client sees of two calls is the same. -/
def SeenAlike : Except Fault VariantResponse → Except Fault VariantResponse → Prop
  | .ok first, .ok second => Alike first second
  | .error first, .error second => first = second
  | .ok _, .error _ | .error _, .ok _ => False

/-- The forwarder connects to an upstream that takes the request and sends
`response`. -/
def AbstractForwarder.Obtains (environment : Environment σ) (self : AbstractForwarder)
    (requestVar : Routing.VariantRequest) (response : Response) (parser : Parser) : Prop :=
  ∃ connected written after last, self.beginStream environment = .ok connected ∧
    environment.calls.write requestVar connected = .ok written ∧
    Delivers environment.calls written response parser after last

/-- The failure that a client is told of a body over the limit. -/
def overLimit : Fault :=
  .runtimeError ("Error response from end point ".toList ++ bodyLimitExceeded)

theorem Delivers.read_admitted
    (delivered : Delivers environment.calls stream response parser after last) {maker : ForwardMaker}
    (room : maker.InMemory parser ∨ maker.Stores environment) (admits : maker.Admits response) :
    ∃ returned rest, maker.read environment stream = .ok (returned, rest, none) ∧
      maker.HandsOn response returned := by
  match maker with
  | .genericForwarder | .secureGenericForwarder =>
      refine ⟨.dynamicbody response.header response.body, last, ?_, rfl, rfl, rfl⟩
      simp only [ForwardMaker.read, GenericForwarderImpl.dynamicBodyReader,
        delivered.readMessage _ admits]
  | .fileForwarder | .secureFileForwarder =>
      have stores : environment.calls.Stores "tmp".toList := room.resolve_left id
      refine ⟨.filebody response.header ⟨response.body, 0⟩, last, ?_, rfl, rfl, rfl⟩
      simp only [ForwardMaker.read, GenericForwarderImpl.fileBodyReader, stores.opened,
        delivered.readMessage _ (Nat.le_sub_one_of_lt delivered.counted), stores.rewound]
      rfl
  | .flexibleForwarder | .secureFlexibleForwarder =>
      cases present : response.hasLength with
      | true =>
          obtain ⟨returned, reads, transparent⟩ := delivered.read_of_length delivered.readHeader
            delivered.done delivered.plain present room
          refine ⟨returned, last, reads, transparent.status, transparent.fields, ?_⟩
          simpa [ForwardMaker.bodyOf, present] using transparent.body
      | false =>
          have came := delivered.readHeader
          rw [show response.headerError = none by simp [Response.headerError, present]] at came
          refine ⟨.stringbody response.header [], after,
            delivered.read_of_no_length came delivered.done present, rfl, rfl, ?_⟩
          simp [ForwardMaker.bodyOf, ForwardMaker.flexible, present, payload]

theorem Delivers.read_refused
    (delivered : Delivers environment.calls stream response parser after last) {maker : ForwardMaker}
    (large : ¬ maker.Admits response) :
    ∃ returned rest, maker.read environment stream = .ok (returned, rest, some bodyLimitExceeded) := by
  match maker with
  | .genericForwarder | .secureGenericForwarder =>
      have refused := delivered.refused defaultBodyLimit (not_le.mp large)
      rcases came : environment.calls.readMessage defaultBodyLimit stream with ⟨res, rest, ec⟩
      rw [came] at refused
      obtain rfl : ec = some bodyLimitExceeded := refused
      exact ⟨_, rest, by simp only [ForwardMaker.read, GenericForwarderImpl.dynamicBodyReader, came]; rfl⟩
  | .fileForwarder | .secureFileForwarder | .flexibleForwarder | .secureFlexibleForwarder =>
      exact absurd trivial large

/-- A forwarder that obtains a response hands it on, unless it is over its limit. -/
theorem AbstractForwarder.Obtains.call
    (obtains : self.Obtains environment requestVar response parser)
    (room : self.maker.InMemory parser ∨ self.maker.Stores environment) :
    (self.maker.Admits response → ∃ returned, self.call environment requestVar = .ok returned ∧
        self.maker.HandsOn response returned) ∧
      (¬ self.maker.Admits response → self.call environment requestVar = .error overLimit) := by
  obtain ⟨connected, written, after, last, begun, wrote, delivered⟩ := obtains
  rw [AbstractForwarder.call_of_written begun wrote]
  constructor
  · intro admits
    obtain ⟨returned, rest, reads, handsOn⟩ := delivered.read_admitted room admits
    exact ⟨returned, by rw [reads]; rfl, handsOn⟩
  · intro large
    obtain ⟨returned, rest, reads⟩ := delivered.read_refused large
    rw [reads]
    rfl

theorem ForwardMaker.HandsOn.alike_iff {first second : ForwardMaker} {returned returned' : VariantResponse}
    (handsOn : first.HandsOn response returned) (handsOn' : second.HandsOn response returned') :
    Alike returned returned' ↔
      first.flexible = second.flexible ∨ response.hasLength = true ∨ response.body = [] := by
  have alike : Alike returned returned' ↔ first.bodyOf response = second.bodyOf response := by
    constructor
    · intro alike
      exact Option.some.inj (handsOn.body.symm.trans (alike.body.trans handsOn'.body))
    · intro same
      exact ⟨handsOn.status.trans handsOn'.status.symm, handsOn.fields.trans handsOn'.fields.symm,
        by rw [handsOn.body, handsOn'.body, same]⟩
  rw [alike, ForwardMaker.bodyOf, ForwardMaker.bodyOf]
  cases first.flexible <;> cases second.flexible <;> cases response.hasLength <;> simp [eq_comm]

/-- A forwarder of any kind hands on what its upstream sends, except that the generic
kind fails for a body over the limit.  Two of them show a client the same, unless just
one of them fails, or they answer, just one of them is flexible and there is a body
without a length. -/
theorem forwarders_agree {environment' : Environment σ} {first second : AbstractForwarder}
    {parser' : Parser} (obtains : first.Obtains environment requestVar response parser)
    (room : first.maker.InMemory parser ∨ first.maker.Stores environment)
    (obtains' : second.Obtains environment' requestVar response parser')
    (room' : second.maker.InMemory parser' ∨ second.maker.Stores environment') :
    let answer := first.call environment requestVar
    let answer' := second.call environment' requestVar
    (first.maker.Admits response →
        ∃ returned, answer = .ok returned ∧ first.maker.HandsOn response returned) ∧
      (¬ first.maker.Admits response → answer = .error overLimit) ∧
      (SeenAlike answer answer' ↔
        (first.maker.Admits response ↔ second.maker.Admits response) ∧
          (first.maker.Admits response → first.maker.flexible = second.maker.flexible ∨
            response.hasLength = true ∨ response.body = [])) := by
  intro answer answer'
  obtain ⟨admitted, refused⟩ := obtains.call room
  obtain ⟨admitted', refused'⟩ := obtains'.call room'
  refine ⟨admitted, refused, ?_⟩
  by_cases admits : first.maker.Admits response
  · obtain ⟨returned, answers, handsOn⟩ := admitted admits
    by_cases admits' : second.maker.Admits response
    · obtain ⟨returned', answers', handsOn'⟩ := admitted' admits'
      simp only [answer, answer', answers, answers', SeenAlike, handsOn.alike_iff handsOn', admits,
        admits', true_and, forall_const]
    · simp only [answer, answer', answers, refused' admits', SeenAlike, admits, admits', iff_false,
        not_true_eq_false, false_and]
  · have fails := refused admits
    by_cases admits' : second.maker.Admits response
    · obtain ⟨returned', answers', -⟩ := admitted' admits'
      simp only [answer, answer', fails, answers', SeenAlike, admits, admits', false_iff,
        not_true_eq_false, false_and]
    · simp only [answer, answer', fails, refused' admits', SeenAlike, admits, admits', iff_self,
        true_and, false_imp_iff]

end

/-- `pendingCalls` with the reading of a whole message. -/
def pendingForwarderCalls : ForwarderCalls Pending where
  toCalls := pendingCalls
  readMessage bodyLimit stream :=
    match stream.header with
    | some header =>
        ((header, stream.body), ⟨none, []⟩,
          if stream.body.length ≤ bodyLimit then none else some bodyLimitExceeded)
    | none => ((⟨0, 11, []⟩, []), stream, some "end of stream".toList)

/-- An upstream that answers every request with what is pending. -/
def Pending.environment (pending : Pending) : Environment Pending where
  calls := pendingForwarderCalls
  builders := ⟨⟨fun _ _ => .ok pending, fun _ ec => ec⟩, ⟨fun _ _ => .ok pending, fun _ ec => ec⟩⟩
  tempFileName := "2023-11-15-1700000000".toList

theorem Pending.beginStream (pending : Pending) (self : AbstractForwarder) :
    self.beginStream pending.environment = .ok pending := by
  obtain ⟨maker, target, port⟩ := self
  cases maker <;> rfl

theorem Pending.obtains (self : AbstractForwarder) (requestVar : Routing.VariantRequest)
    (response : Response) (plain : response.header.get "fileurl".toList = [])
    (small : response.body.length ≤ defaultBodyLimit) :
    self.Obtains (Pending.environment ⟨some response.header, response.body⟩) requestVar response
      ⟨response.header, true, if response.hasLength then some response.body.length else none⟩ := by
  have unannounced : response.headerError = none := by
    simp [Response.headerError, Nat.not_lt.mpr small]
  refine ⟨⟨some response.header, response.body⟩, _, ⟨none, response.body⟩, ⟨none, []⟩,
    Pending.beginStream _ self, rfl, ?_⟩
  refine ⟨(pendingCalls_receives response).toArrives, ?_, rfl, ?_, ?_, ?_, plain⟩
  · rw [unannounced]
    rfl
  · intro limit fits
    simp [Pending.environment, pendingForwarderCalls, fits]
  · intro limit large
    simp [Pending.environment, pendingForwarderCalls, Nat.not_le.mpr large]
  · exact lt_of_le_of_lt small (by decide)

theorem forwarders_agree_unsized :
    let response : Response := ⟨⟨200, 10, []⟩, [104, 105]⟩
    let environment := Pending.environment ⟨some response.header, response.body⟩
    let request : Routing.VariantRequest := .stringbody ⟨.get, "/".toList, 10, [], by decide⟩
    let call (maker : ForwardMaker) : Except Fault VariantResponse :=
      AbstractForwarder.call environment ⟨maker, "up".toList, "80".toList⟩ request
    (∃ returned, call .genericForwarder = .ok returned ∧ payload returned = some [104, 105]) ∧
      ¬ SeenAlike (call .genericForwarder) (call .flexibleForwarder) := by
  intro response environment request call
  have obtains (maker : ForwardMaker) := Pending.obtains ⟨maker, "up".toList, "80".toList⟩ request
    response (by decide) (by decide)
  obtain ⟨admitted, -, alike⟩ := forwarders_agree (obtains .genericForwarder) (.inl trivial)
    (obtains .flexibleForwarder) (.inl nofun)
  obtain ⟨returned, answers, handsOn⟩ := admitted (by decide)
  exact ⟨⟨returned, answers, handsOn.body⟩,
    alike.not.mpr fun same => absurd (same.2 (by decide)) (by decide)⟩

end ChaiBeast.Proxy
