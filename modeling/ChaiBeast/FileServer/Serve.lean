import ChaiBeast.Http.Message

namespace ChaiBeast.FileServer

open Http

/-! The loop of fileserver/fileserver.cpp, from the request it has read to the
response it writes. -/

structure Request where
  target : CppString
  version : Nat
  keepAlive : Bool
deriving Repr, DecidableEq

/-- The calls into Beast and the file system.  `isNoSuchFile` is the comparison
of an error with `no_such_file_or_directory`. -/
structure Calls extends Beast where
  keepAlive : Header → Bool → Header
  openScan : CppString → FileBody × ErrorCode
  isNoSuchFile : CppString → Bool

/-- `v.back()` is `v[v.size() - 1]`, and an empty vector has no such element. -/
def back (v : List α) : Except Fault α :=
  subscript v (v.length - 1)

/-- The name of the file to open for a request target. -/
def fileToFetch (target : CppString) : Except Fault CppString := do
  let filetofetch ← substr target 1
  let substrings := split filetofetch '/'
  let last ← back substrings
  return "/tmp".toList ++ "/".toList ++ last

def errorResponse (calls : Calls) (req : Request) (status : Nat) (body : CppString) :
    VariantResponse :=
  let res : Header := ⟨status, req.version, []⟩
  let res := res.set "Server".toList calls.versionString
  let res := res.set "Content-Type".toList "text/html".toList
  let res := calls.keepAlive res req.keepAlive
  let res := calls.preparePayload res body.length
  .stringbody res (body.map fun c => UInt8.ofNat c.toNat)

def notFound (calls : Calls) (req : Request) (target : CppString) : VariantResponse :=
  errorResponse calls req 404 ("The resource '".toList ++ target ++ "' was not found.".toList)

def serverError (calls : Calls) (req : Request) (what : CppString) : VariantResponse :=
  errorResponse calls req 500 ("An error occurred: '".toList ++ what ++ "'".toList)

/-- One round of the loop.  An exception is printed and leaves the client
without a response. -/
def respond (calls : Calls) (req : Request) : Except Fault VariantResponse := do
  let filetofetch ← fileToFetch req.target
  let (body, ec) := calls.openScan (cString filetofetch)
  match ec with
  | some message =>
      if calls.isNoSuchFile message then return notFound calls req req.target
      return serverError calls req message
  | none =>
      let size := body.content.length
      let res : Header := ⟨200, req.version, []⟩
      let res := res.set "Server".toList calls.versionString
      -- The type does not follow the extension of the file.
      let res := res.set "Content-Type".toList "text/plain".toList
      let res := calls.contentLength res size
      let res := calls.keepAlive res req.keepAlive
      let res := calls.preparePayload res size
      return .filebody res body

end ChaiBeast.FileServer
