import ChaiBeast.Proxy.ProxyServer

namespace ChaiBeast.Proxy

open Data.Transition Http Routing Server

/-! The field `fileurl`, with which an upstream has a flexible forwarder send a file
of the proxy's own file system. -/

/-- Beast rewrites only the fields that frame the body. -/
structure KeepsFields (beast : Beast) : Prop where
  contentLength : ∀ header size, (beast.contentLength header size).status = header.status ∧
    endToEnd (beast.contentLength header size) = endToEnd header
  preparePayload : ∀ header size, (beast.preparePayload header size).status = header.status ∧
    endToEnd (beast.preparePayload header size) = endToEnd header

/-- A header that came whole has a length and names a file. -/
structure Parser.Names (parser : Parser) (url : CppString) : Prop where
  done : parser.isHeaderDone = true
  sized : parser.announced.isSome = true
  named : parser.header.get "fileurl".toList = url
  nonempty : url ≠ []

/-- The upstream takes the request, and its header comes into `parser`. -/
def AbstractForwarder.GetsHeader (environment : Environment τ) (self : AbstractForwarder)
    (requestVar : VariantRequest) (parser : Parser) : Prop :=
  ∃ connected written, self.beginStream environment = .ok connected ∧
    environment.calls.write requestVar connected = .ok written ∧
    (environment.calls.readHeader written).1 = parser

/-- The rest of a file, under the status and the fields of `sent`. -/
structure SendsFile (sent : Header) (file : FileBody) (resp : VariantResponse) : Prop where
  status : (header resp).status = sent.status
  fields : endToEnd (header resp) = endToEnd sent
  body : payload resp = some (file.content.drop file.position)

section

variable {τ : Type} {environment : Environment τ} {self : AbstractForwarder}
  {requestVar : VariantRequest} {parser : Parser} {url : CppString}

theorem readFromUrl_opened {calls : Calls τ} {stream : τ} {file : FileBody}
    (keeps : KeepsFields calls.toBeast)
    (opened : calls.openScan (cString (parser.header.get "fileurl".toList)) = (file, none)) :
    ∃ resp, CommonForwarderImpl.readFromUrl calls stream parser = .ok (resp, stream, none) ∧
      SendsFile parser.header file resp := by
  obtain ⟨status, fields⟩ := keeps.contentLength parser.header file.content.length
  obtain ⟨status', fields'⟩ := keeps.preparePayload
    (calls.contentLength parser.header file.content.length) file.content.length
  refine ⟨_, by simp only [CommonForwarderImpl.readFromUrl, opened]; rfl, ?_, ?_, rfl⟩
  · exact status'.trans status
  · exact fields'.trans fields

/-- Whatever upstream sends a length and a `fileurl`, a flexible forwarder answers
with the local file of that name, and leaves the body unread. -/
theorem AbstractForwarder.GetsHeader.call (gets : self.GetsHeader environment requestVar parser)
    (flexible : self.maker.flexible = true) (keeps : KeepsFields environment.calls.toBeast)
    (names : parser.Names url) :
    match environment.calls.openScan (cString url) with
    | (file, none) => ∃ resp, self.call environment requestVar = .ok resp ∧
        SendsFile parser.header file resp
    | (_, some text) => self.call environment requestVar =
        .error (.runtimeError ("Error response from end point ".toList ++ text)) := by
  obtain ⟨done, sized, rfl, nonempty⟩ := names
  obtain ⟨connected, written, begun, wrote, rfl⟩ := gets
  rcases came : environment.calls.readHeader written with ⟨parser, after, ec⟩
  rw [came] at done sized nonempty
  obtain ⟨length, announced⟩ := Option.isSome_iff_exists.mp sized
  have asked : parser.contentLength = .ok (some length) := by
    rw [parser.contentLength_of_done done, announced]
  have taken : CommonForwarderImpl.read environment.calls.toCalls environment.tempFileName written =
      CommonForwarderImpl.readFromUrl environment.calls.toCalls after parser := by
    simp only [CommonForwarderImpl.read, came, asked, ok_bind, nonempty, ne_eq, not_false_eq_true,
      if_true]
  rw [call_of_written begun wrote, read_of_flexible flexible, taken]
  rcases opened : environment.calls.openScan (cString (parser.header.get "fileurl".toList)) with
    ⟨file, failure⟩
  cases failure with
  | some text =>
      simp only [CommonForwarderImpl.readFromUrl, opened]
      rfl
  | none =>
      obtain ⟨resp, reads, sends⟩ := @readFromUrl_opened _ _ _ after _ keeps opened
      exact ⟨resp, by rw [reads]; rfl, sends⟩

end

end ChaiBeast.Proxy
