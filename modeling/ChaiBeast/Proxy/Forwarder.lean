import ChaiBeast.Http.Message
import ChaiBeast.Routing.Router

namespace ChaiBeast.Proxy

open Http Routing

/-! `CommonForwarderImpl` of abstractforwarder.hpp, over the calls it makes
into Beast and the file system. -/

/-- A `response_parser`, whose header may have broken off.  Moving it into a parser
for another body type keeps what it has. -/
structure Parser where
  header : Header
  isHeaderDone : Bool
  announced : Option Nat
deriving Repr, DecidableEq

/-- `content_length()`, which is undefined until the header is done. -/
def Parser.contentLength (self : Parser) : Except Fault (Option Nat) :=
  if self.isHeaderDone then .ok self.announced else .error .unreadHeader

/-- The operations on a connected stream `σ`.  Each one returns the error code
it sets; overloads without an error code throw it.  `readBody` reads what is left
of a message, without a limit. -/
structure Calls (σ : Type u) extends Beast where
  readHeader : σ → Parser × σ × ErrorCode
  headerDone : ∀ stream, (readHeader stream).2.2 = none → (readHeader stream).1.isHeaderDone = true
  readBody : Parser → σ → Bytes × σ × ErrorCode
  openScan : CppString → FileBody × ErrorCode
  openWrite : CppString → ErrorCode
  seek : FileBody → Nat → FileBody × ErrorCode
  write : VariantRequest → σ → Except Fault σ

structure StreamBuilder (σ : Type u) where
  beginStream : CppString → CppString → Except Fault σ
  endStream : σ → ErrorCode → ErrorCode

def throwing (ec : ErrorCode) : Except Fault Unit :=
  match ec with
  | some message => .error (.runtimeError message)
  | none => .ok ()

namespace CommonForwarderImpl

variable {σ : Type} (calls : Calls σ)

def checkFail (ec : ErrorCode) : Except Fault Unit :=
  throwing (ec.map ("Error response from end point ".toList ++ ·))

def readFromUrl (stream : σ) (res0 : Parser) :
    Except Fault (VariantResponse × σ × ErrorCode) := do
  let url := res0.header.get "fileurl".toList
  let (body, ec) := calls.openScan (cString url)
  checkFail ec
  let size := body.content.length
  let header := calls.preparePayload (calls.contentLength res0.header size) size
  return (.filebody header body, stream, ec)

def readAsFile (tempFileName : CppString) (stream : σ) (res0 : Parser) :
    Except Fault (VariantResponse × σ × ErrorCode) := do
  let ec := calls.openWrite (cString tempFileName)
  checkFail ec
  let (content, stream, failure) := calls.readBody res0 stream
  throwing failure
  let (body, ec) := calls.seek ⟨content, content.length⟩ 0
  let header := calls.preparePayload res0.header body.content.length
  checkFail ec
  return (.filebody header body, stream, ec)

def threshold : Nat := 8000

/-- `read`, with the name that `getLocalTime()` gives to a temporary file. -/
def read (tempFileName : CppString) (stream : σ) :
    Except Fault (VariantResponse × σ × ErrorCode) := do
  let (res0, stream, ec) := calls.readHeader stream
  -- The error of the header is not looked at here.
  match ← res0.contentLength with
  | some length =>
      if res0.header.get "fileurl".toList ≠ [] then readFromUrl calls stream res0
      else if length > threshold then readAsFile calls tempFileName stream res0
      else
        let (body, stream, ec) := calls.readBody res0 stream
        let header := calls.preparePayload res0.header body.length
        checkFail ec
        return (.dynamicbody header body, stream, ec)
  -- A message without a length is released before any body is read.
  | none => return (.stringbody res0.header [], stream, ec)

/-- `operator()`. -/
def call (builder : StreamBuilder σ) (target port tempFileName : CppString)
    (requestVar : VariantRequest) : Except Fault VariantResponse := do
  let forwarderStream ← builder.beginStream target port
  let forwarderStream ← calls.write requestVar forwarderStream
  let (resp, forwarderStream, ec) ← read calls tempFileName forwarderStream
  checkFail ec
  let _ec := builder.endStream forwarderStream ec
  return resp

end CommonForwarderImpl

end ChaiBeast.Proxy
