import ChaiBeast.Strings

namespace ChaiBeast.Http

/-! Responses as the sources build them, over the parts of Beast they call. -/

abbrev Bytes := List UInt8

structure Field where
  name : CppString
  value : CppString
deriving Repr, DecidableEq

/-- Field names compare without regard to case. -/
def Field.named (field : Field) (name : CppString) : Bool :=
  field.name.map Char.toLower == name.map Char.toLower

structure Header where
  status : Nat
  version : Nat
  fields : List Field
deriving Repr, DecidableEq

namespace Header

def get (header : Header) (name : CppString) : CppString :=
  match header.fields.find? (Field.named · name) with
  | some field => field.value
  | none => []

def insert (header : Header) (name value : CppString) : Header :=
  { header with fields := header.fields ++ [⟨name, value⟩] }

def set (header : Header) (name value : CppString) : Header :=
  { header with fields := header.fields.filter (!Field.named · name) ++ [⟨name, value⟩] }

end Header

structure FileBody where
  content : Bytes
  position : Nat
deriving Repr, DecidableEq

inductive VariantResponse where
  | emptybody (header : Header)
  | filebody (header : Header) (body : FileBody)
  | filebodyBase64 (header : Header) (body : FileBody)
  | stringbody (header : Header) (body : Bytes)
  | dynamicbody (header : Header) (body : Bytes)
deriving Repr, DecidableEq

/-- The calls into Beast that rewrite a response header. -/
structure Beast where
  versionString : CppString
  contentLength : Header → Nat → Header
  preparePayload : Header → Nat → Header

end ChaiBeast.Http
