import ChaiBeast.Http.Message
import ChaiBeast.Routing.Router

namespace ChaiBeast.Dump

open ChaiBeast.Http ChaiBeast.Routing

/-! `DumpUploader` of dump_server/dump_uploader.hpp. -/

def dumpRoute : CppString :=
  "/redfish/v1/Systems/system/LogServices/Dump/{filename}/attachment".toList

def entriesRoute : CppString :=
  "/redfish/v1/Systems/system/LogServices/Dump/Entries".toList

inductive DumpHandler where
  | processUpload
  | entries
deriving Repr, DecidableEq

structure DumpUploader where
  rootPath : CppString
deriving Repr, DecidableEq

namespace DumpUploader

def addRoutes (router : HttpRouter DumpHandler) : HttpRouter DumpHandler :=
  (router.addHandler ⟨dumpRoute, .get⟩ .processUpload).addHandler ⟨entriesRoute, .get⟩ .entries

/-- `std::filesystem::path(rootPath).c_str() + name`. -/
def filePath (uploader : DumpUploader) (name : CppString) : CppString :=
  cString uploader.rootPath ++ name

/-- `exist` is `std::filesystem::exists`, which throws where it cannot tell. -/
def fetchFileUrl (beast : Beast) (exist : CppString → Except Fault Bool) (req : Request)
    (filetofetch : CppString) : Except Fault VariantResponse := do
  if !(← exist filetofetch) then .error (.fileNotFound filetofetch)
  else
    let res : Header := ⟨200, req.version, []⟩
    let res := res.set "Server".toList beast.versionString
    let res := res.insert "fileurl".toList filetofetch
    let res := beast.contentLength res 0
    let res := beast.preparePayload res 0
    return .stringbody res []

def processUpload (uploader : DumpUploader) (beast : Beast) (exist : CppString → Except Fault Bool)
    (req : Request) (httpfunc : HttpFunction) : Except Fault VariantResponse :=
  let filetofetch := uploader.filePath (httpfunc.get "filename".toList)
  fetchFileUrl beast exist req filetofetch

def entries (uploader : DumpUploader) (beast : Beast) (exist : CppString → Except Fault Bool)
    (req : Request) (_httpfunc : HttpFunction) : Except Fault VariantResponse :=
  let filetofetch := uploader.filePath "Entries".toList
  fetchFileUrl beast exist req filetofetch

end DumpUploader

end ChaiBeast.Dump
