import ChaiBeast.Proxy.Forwarder

namespace ChaiBeast.Proxy

open Http

/-! What a client of the flexible forwarder sees of the upstream's response. -/

def isFraming (field : Field) : Bool :=
  field.named "Content-Length".toList || field.named "Transfer-Encoding".toList

def endToEnd (header : Header) : List Field :=
  header.fields.filter (!isFraming ·)

structure Response where
  header : Header
  body : Bytes
deriving Repr, DecidableEq

def Response.hasLength (response : Response) : Bool :=
  response.header.fields.any (Field.named · "Content-Length".toList)

def header : VariantResponse → Header
  | .emptybody header => header
  | .filebody header _ => header
  | .filebodyBase64 header _ => header
  | .stringbody header _ => header
  | .dynamicbody header _ => header

/-- The bytes that the body holds for the client, where it sends them as they
are. -/
def payload : VariantResponse → Option Bytes
  | .emptybody _ => some []
  | .filebody _ body => some (body.content.drop body.position)
  | .filebodyBase64 .. => none
  | .stringbody _ body => some body
  | .dynamicbody _ body => some body

structure Transparent (response : Response) (returned : VariantResponse) : Prop where
  status : (header returned).status = response.header.status
  fields : endToEnd (header returned) = endToEnd response.header
  body : payload returned = some response.body

/-- The file can be opened for writing, and what was written can be read again. -/
structure Calls.Stores {σ : Type} (calls : Calls σ) (file : CppString) : Prop where
  opened : calls.openWrite file = none
  rewound : ∀ content position, calls.seek ⟨content, position⟩ 0 = (⟨content, 0⟩, none)

/-- Behind a header in `parser`, Beast reads the rest of `response` without an error. -/
structure Arrives {σ : Type} (calls : Calls σ) (response : Response) (parser : Parser)
    (after last : σ) : Prop where
  header : parser.header = response.header
  length : parser.announced.isSome = response.hasLength
  readBody : calls.readBody parser after = (response.body, last, none)
  prepared : ∀ header size, (calls.preparePayload header size).status = header.status ∧
    endToEnd (calls.preparePayload header size) = endToEnd header

/-- Beast reads `response` from `stream` without an error, and the temporary
file takes it. -/
structure Receives {σ : Type} (calls : Calls σ) (tempFileName : CppString) (stream : σ)
    (response : Response) (parser : Parser) (after last : σ) : Prop
    extends Arrives calls response parser after last, calls.Stores (cString tempFileName) where
  readHeader : calls.readHeader stream = (parser, after, none)

variable {σ : Type} {calls : Calls σ} {tempFileName : CppString} {stream after last : σ}
  {response : Response} {parser : Parser} {ec : ErrorCode}

theorem Parser.contentLength_of_done (done : parser.isHeaderDone = true) :
    parser.contentLength = .ok parser.announced := by
  rw [contentLength, done]
  rfl

/-- With a length, the flexible forwarder reads on whatever became of the header. -/
theorem Arrives.read_of_length (arrives : Arrives calls response parser after last)
    (came : calls.readHeader stream = (parser, after, ec)) (done : parser.isHeaderDone = true)
    (plain : response.header.get "fileurl".toList = []) (present : response.hasLength = true)
    (room : (∀ length ∈ parser.announced, length ≤ CommonForwarderImpl.threshold) ∨
      calls.Stores (cString tempFileName)) :
    ∃ returned, CommonForwarderImpl.read calls tempFileName stream = .ok (returned, last, none) ∧
      Transparent response returned := by
  obtain ⟨length, announced⟩ := Option.isSome_iff_exists.mp (arrives.length.trans present)
  have asked : parser.contentLength = .ok (some length) := by
    rw [parser.contentLength_of_done done, announced]
  obtain ⟨status, fields⟩ := arrives.prepared parser.header response.body.length
  rw [arrives.header] at status fields
  by_cases large : length > CommonForwarderImpl.threshold
  · have stores := room.resolve_left fun small => absurd (small length announced) (by omega)
    refine ⟨.filebody (calls.preparePayload response.header response.body.length)
      ⟨response.body, 0⟩, ?_, status, fields, rfl⟩
    simp only [CommonForwarderImpl.read, CommonForwarderImpl.readAsFile, came, asked, ok_bind,
      plain, ne_eq, not_true_eq_false, if_false, large, if_true, stores.opened, arrives.readBody,
      stores.rewound, arrives.header]
    rfl
  · refine ⟨.dynamicbody (calls.preparePayload response.header response.body.length)
      response.body, ?_, status, fields, rfl⟩
    simp only [CommonForwarderImpl.read, came, asked, ok_bind, plain, ne_eq, not_true_eq_false,
      if_false, large, arrives.readBody, arrives.header]
    rfl

theorem Arrives.read_of_no_length (arrives : Arrives calls response parser after last)
    (came : calls.readHeader stream = (parser, after, ec)) (done : parser.isHeaderDone = true)
    (absent : response.hasLength = false) :
    CommonForwarderImpl.read calls tempFileName stream =
      .ok (.stringbody response.header [], after, ec) := by
  have unknown : parser.announced = none :=
    Option.not_isSome_iff_eq_none.mp (by rw [arrives.length, absent]; exact Bool.false_ne_true)
  have asked : parser.contentLength = .ok none := by
    rw [parser.contentLength_of_done done, unknown]
  simp only [CommonForwarderImpl.read, came, asked, ok_bind, arrives.header]
  rfl

theorem Receives.done (received : Receives calls tempFileName stream response parser after last) :
    parser.isHeaderDone = true := by
  have done := calls.headerDone stream
  rw [received.readHeader] at done
  exact done rfl

/-- The flexible forwarder answers every response that arrives without error,
and hands it on unchanged exactly if it has a length or nothing in its body. -/
theorem read_transparent_iff
    (received : Receives calls tempFileName stream response parser after last)
    (plain : response.header.get "fileurl".toList = []) :
    ∃ returned rest,
      CommonForwarderImpl.read calls tempFileName stream = .ok (returned, rest, none) ∧
      (Transparent response returned ↔ response.hasLength = true ∨ response.body = []) := by
  cases present : response.hasLength with
  | true =>
      obtain ⟨returned, reads, transparent⟩ := received.read_of_length received.readHeader
        received.done plain present (.inr received.toStores)
      exact ⟨returned, last, reads, by simp [transparent]⟩
  | false =>
      refine ⟨_, after, received.read_of_no_length received.readHeader received.done present, ?_⟩
      constructor
      · intro transparent
        exact .inr (Option.some.inj transparent.body).symm
      · intro spared
        rcases spared with absent | empty
        · cases absent
        · exact ⟨rfl, rfl, congrArg some empty.symm⟩

/-- A stream that still carries a header, and a body as it will be decoded. -/
structure Pending where
  header : Option Header
  body : Bytes
deriving Repr, DecidableEq

/-- Calls that succeed, over one pending message. -/
def pendingCalls : Calls Pending where
  versionString := "Boost.Beast/345".toList
  contentLength header size := header.set "Content-Length".toList (Nat.toDigits 10 size)
  preparePayload header size := header.set "Content-Length".toList (Nat.toDigits 10 size)
  readHeader stream :=
    match stream.header with
    | some header =>
        let length := header.fields.any (Field.named · "Content-Length".toList)
        (⟨header, true, if length then some stream.body.length else none⟩, ⟨none, stream.body⟩, none)
    | none => (⟨⟨0, 11, []⟩, false, none⟩, stream, some "end of stream".toList)
  headerDone stream read := by
    obtain ⟨header, body⟩ := stream
    cases header with
    | some header => rfl
    | none => cases read
  readBody _ stream := (stream.body, ⟨none, []⟩, none)
  openScan _ := (⟨[], 0⟩, some "No such file or directory".toList)
  openWrite _ := none
  seek file position := (⟨file.content, position⟩, none)
  write _ stream := .ok stream

theorem endToEnd_set_contentLength (header : Header) (value : CppString) :
    endToEnd (header.set "Content-Length".toList value) = endToEnd header := by
  have framing : isFraming ⟨"Content-Length".toList, value⟩ = true := by
    simp [isFraming, Field.named]
  simp only [endToEnd, Header.set, List.filter_append, List.filter_filter, List.filter_singleton,
    framing]
  rw [Bool.not_true, cond_false, List.append_nil]
  refine List.filter_congr fun field _ => ?_
  cases named : field.named "Content-Length".toList <;>
    simp only [isFraming, named, Bool.true_or, Bool.false_or, Bool.not_true, Bool.not_false,
      Bool.and_true, Bool.and_false]

theorem pendingCalls_receives (response : Response) :
    Receives pendingCalls [] ⟨some response.header, response.body⟩ response
      ⟨response.header, true, if response.hasLength then some response.body.length else none⟩
      ⟨none, response.body⟩ ⟨none, []⟩ where
  readHeader := rfl
  header := rfl
  length := by cases response.hasLength <;> rfl
  readBody := rfl
  opened := rfl
  rewound _ _ := rfl
  prepared header size := ⟨rfl, endToEnd_set_contentLength header _⟩

theorem read_transparent_short :
    let response : Response :=
      ⟨⟨200, 11, [⟨"Server".toList, "up".toList⟩, ⟨"Content-Length".toList, "2".toList⟩]⟩, [104, 105]⟩
    ∃ returned rest,
      CommonForwarderImpl.read pendingCalls [] ⟨some response.header, response.body⟩ =
        .ok (returned, rest, none) ∧
      (Transparent response returned ↔ response.hasLength = true ∨ response.body = []) :=
  read_transparent_iff (pendingCalls_receives _) (by decide)

theorem unsized_body_lost :
    let lost (response : Response) : Prop :=
      Receives pendingCalls [] ⟨some response.header, response.body⟩ response
          ⟨response.header, true, none⟩ ⟨none, response.body⟩ ⟨none, []⟩ ∧
        response.header.get "fileurl".toList = [] ∧
        ∃ returned rest,
          CommonForwarderImpl.read pendingCalls [] ⟨some response.header, response.body⟩ =
            .ok (returned, rest, none) ∧
          payload returned = some [] ∧ ¬ Transparent response returned
    lost ⟨⟨200, 11, [⟨"Transfer-Encoding".toList, "chunked".toList⟩]⟩, [104, 105]⟩ ∧
      lost ⟨⟨200, 10, []⟩, [104, 105]⟩ :=
  ⟨⟨pendingCalls_receives _, by decide, _, _, rfl, rfl, fun kept => nomatch kept.body⟩,
    ⟨pendingCalls_receives _, by decide, _, _, rfl, rfl, fun kept => nomatch kept.body⟩⟩

end ChaiBeast.Proxy
