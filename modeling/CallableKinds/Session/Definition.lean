import CallableKinds.Heap.Derivation
import CallableKinds.Session

/-!
# Definitions

What objects can be declared, and how each of them comes into the heap. A datum of which there is
only one object may be declared twice and is then the same object.
-/

namespace CallableKinds

/-- A value in a declared instance. -/
inductive AttributeInput where
  | plain (d : Datum)
  | named (name : String)
  /-- A code object with some flags. -/
  | code (flags : Datum)

/-- A declared function. What is not declared is taken from the name that it gets. -/
structure FunctionDefinition where
  name : Option String
  qualname : Option String
  flavor : Flavor
  params : Option Signature

/-- A declared class. -/
structure ClassDefinition where
  module : String
  name : Option String
  qualname : Option String
  metaclass : String
  bases : List String
  /-- The object that serves calls of its instances. -/
  call : Option String
  /-- The flags of a code object in the class. -/
  codeFlags : Option Datum
  slots : Bool
  finalizer : Bool

/-- A declared object. -/
inductive Definition where
  | function (f : FunctionDefinition)
  | cls (c : ClassDefinition)
  | instanceOf (cls : String) (attributes : List (String × AttributeInput))
  | method (func receiver : String)
  /-- A builtin object, by the path that leads to it. -/
  | builtin (path : String)
  | value (d : Datum)

namespace Definition

open Session

/-- The value that an input of an instance stands for. -/
def attributeValue : AttributeInput → InSession Value
  | .plain d => return .datum d
  | .named name => return .object (← object name)
  | .code flags => return .code flags

/-- Makes a declared class. -/
def makeClass (label : String) (c : ClassDefinition) : InSession Ref := do
  let bases ← c.bases.mapM object
  let call ← c.call.mapM object
  let h ← heap
  let name := c.name.getD label
  let metaclass ← h.derivable name c.metaclass bases
  let shape := Shape.cls ⟨c.module, name, c.qualname.getD name, metaclass,
    if bases.isEmpty then [Catalog.objectClass] else bases, c.slots, c.finalizer, false, none,
    false⟩
  let attributes := (call.map fun r => ("__call__", Value.object r)).toList ++
    (c.codeFlags.map fun flags => ("__code__", Value.code flags)).toList
  setHeap (h.addWith shape attributes)
  return h.size

/-- Makes a declared instance. -/
def makeInstance (cls : String) (attributes : List (String × AttributeInput)) : InSession Ref := do
  let r ← add (.instanceOf (← object cls))
  attributes.forM fun (name, input) => do
    let v ← attributeValue input
    setHeap (← (← heap).setAttribute r name v)
  return r

/-- Makes a declared method. -/
def makeMethod (func receiver : String) : InSession Ref := do
  let func ← object func
  let receiver ← object receiver
  let h ← heap
  if !h.callable func then throw (.invalidCall "first argument must be callable")
  match h.shape receiver with
  | .datum .none => throw (.invalidCall "instance must not be None")
  | _ => add (.method func receiver)

/-- Makes a declared object that is going to get a name. -/
def make (label : String) : Definition → InSession Ref
  | function f =>
    let name := f.name.getD label
    add (.function (.ofSignature name (f.qualname.getD name) f.flavor
      (f.params.getD Signature.anything) (.echo label)))
  | cls c => makeClass label c
  | instanceOf c attributes => makeInstance c attributes
  | method func receiver => makeMethod func receiver
  | builtin path => do
    match Catalog.find? path with
    | some r => return r
    | none => throw (.missingKey (quoteString path))
  | value d => do
    match (← heap).existing? d with
    | some r => return r
    | none => add (.datum d)

end Definition

end CallableKinds
