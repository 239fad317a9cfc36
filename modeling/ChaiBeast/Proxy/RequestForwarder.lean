import ChaiBeast.Data.OrderedMap
import ChaiBeast.Strings

namespace ChaiBeast.Proxy

open ChaiBeast.Data

/-! `RequestForwarder` of request_forwarder.hpp, built with `SSL_ON`. -/

inductive ForwardMaker where
  | fileForwarder
  | genericForwarder
  | flexibleForwarder
  | secureFileForwarder
  | secureGenericForwarder
  | secureFlexibleForwarder
deriving Repr, DecidableEq

/-- `forwardMaker()[name]`.  A name that is not listed gives a null pointer. -/
def forwardMaker (name : CppString) : Option ForwardMaker :=
  [("file_forwarder".toList, ForwardMaker.fileForwarder),
    ("generic_forwarder".toList, .genericForwarder),
    ("flexible_forwarder".toList, .flexibleForwarder),
    ("secure_file_forwarder".toList, .secureFileForwarder),
    ("secure_generic_forwarder".toList, .secureGenericForwarder),
    ("secure_flexible_forwarder".toList, .secureFlexibleForwarder)].lookup name

/-- One element of the configuration.  An absent key reads as null. -/
structure RouteEntry where
  path : CppString
  ip : CppString
  port : CppString
  type : Option CppString := none
  default : Option Bool := none
deriving Repr, DecidableEq

structure AbstractForwarder where
  maker : ForwardMaker
  target : CppString
  port : CppString
deriving Repr, DecidableEq

/-- The table, in the order in which it is iterated, and the default. -/
structure RequestForwarder where
  table : List (CppString × AbstractForwarder) := []
  defaultForwarder : Option AbstractForwarder := none
deriving Repr, DecidableEq

namespace RouteEntry

def forwarderType (r : RouteEntry) : CppString :=
  r.type.getD "secure_flexible_forwarder".toList

/-- The forwarder that `makeForwader` makes, if the type is known. -/
def forwarder (r : RouteEntry) : Option AbstractForwarder :=
  (forwardMaker r.forwarderType).map fun makeForwader => ⟨makeForwader, r.ip, r.port⟩

def isDefault (r : RouteEntry) : Bool :=
  r.default == some true

end RouteEntry

/-- A `string_view` of the first `size` characters of a buffer. -/
structure StringView where
  data : CppString
  size : Nat
deriving Repr, DecidableEq

def StringView.text (view : StringView) : CppString :=
  view.data.take view.size

/-- The slot that owns the object a returned pointer refers to. -/
inductive Owner where
  | route (path : CppString)
  | default
deriving Repr, DecidableEq

structure Pointer where
  owner : Owner
  forwarder : AbstractForwarder
deriving Repr, DecidableEq

namespace RequestForwarder

/-- The table after `table[path] = route`.  It lists the entries in the order of
insertion; the order of iteration is any permutation of that. -/
def addRoute (self : RequestForwarder) (path : CppString) (route : AbstractForwarder) :
    RequestForwarder :=
  { self with table := OrderedMap.insert path route self.table }

def addEntry (self : RequestForwarder) (r : RouteEntry) : RequestForwarder :=
  match r.forwarder with
  | none => self
  | some forwarder =>
      let self := self.addRoute r.path forwarder
      if r.isDefault then { self with defaultForwarder := some forwarder } else self

def load (routdef : List RouteEntry) : RequestForwarder :=
  routdef.foldl addEntry {}

def atKey (self : RequestForwarder) (key : CppString) : Except Fault Pointer :=
  match self.table.find? (·.1 == key) with
  | some entry => .ok ⟨.route entry.1, entry.2⟩
  | none => .error .outOfRange

def wildCardMatch (self : RequestForwarder) (path : CppString) :
    Except Fault (Option Pointer) :=
  let wildcarkeys := ((self.table.map Prod.fst).filter (['*'].isSuffixOf ·)).map fun a =>
    StringView.mk a (a.length - 1)
  match wildcarkeys.find? fun a => a.text.isPrefixOf path with
  -- `data()` points to the whole key, which is read as a C string.
  | some iter => (self.atKey (cString iter.data)).map some
  | none => .ok none

def getForwarder (self : RequestForwarder) (path : CppString) : Except Fault (Option Pointer) := do
  if let some matched ← self.wildCardMatch path then
    return some matched
  if let some iter := self.table.find? (·.1 == path) then
    return some ⟨.route iter.1, iter.2⟩
  return self.defaultForwarder.map (⟨.default, ·⟩)

end RequestForwarder

end ChaiBeast.Proxy
