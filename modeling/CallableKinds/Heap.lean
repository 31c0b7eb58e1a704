import CallableKinds.Datum
import CallableKinds.Keyed
import CallableKinds.Signature

/-!
# Heaps of objects

The objects that callables are made of. An object has a shape, fixed when it is made, and possibly a
dictionary of attributes, which two objects may share. Objects refer to each other by their place in
the heap, so a reference is an identity.
-/

namespace CallableKinds

/-- The identity of an object. -/
abbrev Ref := Nat

/-- What a function gives when it is called. -/
inductive Flavor where
  | plain
  | coroutine
  | generator
  | asyncGenerator
  deriving Repr, DecidableEq, Inhabited

namespace Flavor

/-- The code flag of a flavor. -/
def flag : Flavor → Int
  | plain => 0
  | coroutine => 128
  | generator => 32
  | asyncGenerator => 512

/-- Whether calls have to be awaited. -/
def isAsync (f : Flavor) : Bool := f == coroutine || f == asyncGenerator

/-- Whether calls give one value after another. -/
def isGenerator (f : Flavor) : Bool := f == generator || f == asyncGenerator

end Flavor

/-- What a function does. -/
inductive Body where
  /-- Tells its label and its arguments. -/
  | echo (label : String)
  /-- Makes a function look like another one, reporting to the active tracker or not. -/
  | updateWrapper (tracked : Bool)
  deriving Repr, DecidableEq, Inhabited

/-- The code of a function. Which parameters have default values is no part of it. -/
structure FunctionCode where
  flavor : Flavor
  params : List (String × ParamKind)
  body : Body
  deriving Repr, DecidableEq, Inhabited

namespace FunctionCode

/-- The number of positional parameters. -/
def positionalCount (c : FunctionCode) : Nat := c.params.countP (·.2.isPositional)

/-- The parameters, where some default values are there for the positional ones, and others for those
that are keyword only, by name. -/
def signature (c : FunctionCode) (defaults : Nat) (keywordDefaults : List String) : Signature :=
  .withDefaults keywordDefaults (Signature.required c.positionalCount defaults) c.params

end FunctionCode

/-- What an argument or an attribute may be. -/
inductive Value where
  | datum (d : Datum)
  | object (r : Ref)
  /-- An object that has flags in the way of a code object and nothing else. -/
  | code (flags : Datum)
  /-- The code of a function. -/
  | compiled (c : FunctionCode)
  /-- A fixed list of names. -/
  | names (items : List String)
  /-- The default values of a function, of which only the number matters. -/
  | defaults (count : Nat)
  deriving Repr, Inhabited

/-- The object that a value is. -/
def Value.object? : Value → Option Ref
  | .object r => some r
  | _ => none

/-- Attributes by name. -/
abbrev Attributes := Keyed String Value

/-- A function. Its code stays, but it may get other names and default values. -/
structure FunctionInfo where
  name : String
  qualname : String
  code : FunctionCode
  /-- The number of default values of positional parameters. -/
  defaults : Nat
  /-- The names with default values for parameters that are keyword only. -/
  keywordDefaults : List String
  deriving Repr, DecidableEq, Inhabited

namespace FunctionInfo

/-- What calls of a function give. -/
def flavor (f : FunctionInfo) : Flavor := f.code.flavor

/-- What a function does. -/
def body (f : FunctionInfo) : Body := f.code.body

/-- The parameters of a function with the defaults that they have now. -/
def signature (f : FunctionInfo) : Signature := f.code.signature f.defaults f.keywordDefaults

/-- The function with given parameters. -/
def ofSignature (name qualname : String) (flavor : Flavor) (params : Signature) (body : Body) :
    FunctionInfo where
  name := name
  qualname := qualname
  code := ⟨flavor, params.kinds, body⟩
  defaults := params.countP fun p => p.kind.isPositional && p.hasDefault
  keywordDefaults := (params.filter fun p => p.kind == .keywordOnly && p.hasDefault).map (·.name)

end FunctionInfo

/-- A class. -/
structure ClassInfo where
  module : String
  name : String
  qualname : String
  /-- The name of the type of the class itself. -/
  metaclass : String
  bases : List Ref
  /-- The class gives its instances neither a dictionary nor weak references. -/
  slots : Bool
  finalizer : Bool
  /-- The class cannot be changed, and it has a signature only if one is given here. -/
  builtin : Bool
  constructor : Option Signature
  /-- Objects of the class cannot be made, because some of its methods are missing. -/
  abstract : Bool
  deriving Repr, DecidableEq, Inhabited

/-- The kinds of builtin callables. -/
inductive BuiltinKind where
  | function
  | classMethodDescriptor
  | methodDescriptor
  | slotWrapper
  | methodWrapper
  deriving Repr, DecidableEq, Inhabited

namespace BuiltinKind

/-- The name of the type of a builtin callable. -/
def typeName : BuiltinKind → String
  | function => "builtin_function_or_method"
  | classMethodDescriptor => "classmethod_descriptor"
  | methodDescriptor => "method_descriptor"
  | slotWrapper => "wrapper_descriptor"
  | methodWrapper => "method-wrapper"

end BuiltinKind

/-- A builtin callable that is no class. -/
structure BuiltinInfo where
  kind : BuiltinKind
  name : String
  qualname : String
  printed : String
  signature : Option Signature
  /-- The object that it is bound to. -/
  receiver : Option Ref
  /-- The slot wrapper that a method wrapper binds. -/
  wrapped : Option Ref
  weaklyReferable : Bool
  deriving Repr, DecidableEq, Inhabited

namespace BuiltinInfo

/-- Whether looking a builtin up on an object binds it to the object. -/
def bindsReceiver (b : BuiltinInfo) : Bool := b.kind != .function && b.kind != .methodWrapper

/-- The name of the class that a descriptor belongs to. -/
def owner (b : BuiltinInfo) : String := (b.qualname.splitOn ".").headD ""

end BuiltinInfo

/-- A callable some of whose arguments are fixed. -/
structure PartialInfo where
  cls : Ref
  func : Ref
  args : List Value
  keywords : Keyed String Value
  deriving Repr, Inhabited

/-- What an object is. -/
inductive Shape where
  | function (f : FunctionInfo)
  | cls (c : ClassInfo)
  | instanceOf (cls : Ref)
  /-- A callable bound to a receiver. -/
  | method (func receiver : Ref)
  | builtin (b : BuiltinInfo)
  | datum (d : Datum)
  | partialOf (p : PartialInfo)
  deriving Repr

instance : Inhabited Shape := ⟨.datum .none⟩

/-- An object and the place of its attribute dictionary, if it has one. -/
structure Object where
  shape : Shape
  dict : Option Nat
  deriving Repr, Inhabited

/-- The objects and the attribute dictionaries. -/
structure Heap where
  objects : List Object
  dicts : List Attributes
  deriving Repr, Inhabited

namespace Heap

/-- The object with an identity. -/
def object (h : Heap) (r : Ref) : Object := (h.objects[r]?).getD default

/-- What an object is. -/
def shape (h : Heap) (r : Ref) : Shape := (h.object r).shape

/-- The number of objects. A chain of references that is longer than this comes back to an object
it has seen. -/
def size (h : Heap) : Nat := h.objects.length

/-- The attributes in the dictionary of an object. -/
def ownAttributes (h : Heap) (r : Ref) : Attributes :=
  ((h.object r).dict.bind fun i => h.dicts[i]?).getD []

/-- The heap with a new object that has no dictionary. -/
def add (h : Heap) (shape : Shape) : Heap := { h with objects := h.objects ++ [⟨shape, none⟩] }

/-- The heap with a new object that has a dictionary of its own. -/
def addWith (h : Heap) (shape : Shape) (attributes : Attributes) : Heap where
  objects := h.objects ++ [⟨shape, some h.dicts.length⟩]
  dicts := h.dicts ++ [attributes]

/-- The heap in which an object has another shape. -/
def reshape (h : Heap) (r : Ref) (shape : Shape) : Heap :=
  { h with objects := h.objects.modify r fun o => { o with shape } }

/-- The heap in which an object has a dictionary, an empty one if it had none. -/
def withDict (h : Heap) (r : Ref) : Heap :=
  if (h.object r).dict.isSome then h
  else
    { objects := h.objects.modify r fun o => { o with dict := some h.dicts.length }
      dicts := h.dicts ++ [[]] }

/-- The heap in which some attributes are put into the dictionary of an object. -/
def putAttributes (h : Heap) (r : Ref) (attributes : List (String × Value)) : Heap :=
  let h := h.withDict r
  match (h.object r).dict with
  | some i => { h with dicts := h.dicts.modify i fun d => Keyed.putAll d attributes }
  | none => h

@[simp] theorem size_add (h : Heap) (shape : Shape) : (h.add shape).size = h.size + 1 := by
  simp [size, add]

@[simp] theorem size_addWith (h : Heap) (shape : Shape) (attributes : Attributes) :
    (h.addWith shape attributes).size = h.size + 1 := by
  simp [size, addWith]

@[simp] theorem size_reshape (h : Heap) (r : Ref) (shape : Shape) :
    (h.reshape r shape).size = h.size := by
  simp [size, reshape]

@[simp] theorem size_withDict (h : Heap) (r : Ref) : (h.withDict r).size = h.size := by
  unfold withDict
  split <;> simp [size]

end Heap

end CallableKinds
