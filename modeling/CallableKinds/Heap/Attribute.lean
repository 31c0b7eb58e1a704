import CallableKinds.Fault
import CallableKinds.Heap.Catalog
import CallableKinds.Heap.Lineage

/-!
# Attributes

Reading and setting the attributes of objects. The names of a function or a class, and the code, the
default values and the annotations of a function are kept apart from its dictionary, so an entry of
that name in the dictionary of a function is never read. A bound method has the attributes of the
callable it binds. Reading an attribute runs no code: objects do not take part in how their
attributes are found, except that functions and slots in a class are bound to its objects.
-/

namespace CallableKinds

namespace Heap

/-- The class of an object that has one. -/
def classOf? (h : Heap) (r : Ref) : Option Ref :=
  match h.shape r with
  | .instanceOf c => some c
  | .partialOf p => some p.cls
  | _ => none

/-- The value of an attribute of a class, its own or an inherited one. -/
def classAttribute? (h : Heap) (cls : Ref) (name : String) : Option Value :=
  (h.lineage cls).findSome? fun c => Keyed.find? name (h.ownAttributes c)

/-- Whether a class among those above has a property. -/
def inherits (h : Heap) (cls : Ref) (p : ClassInfo → Bool) : Bool :=
  (h.lineage cls).any fun c => match h.shape c with
    | .cls info => p info
    | _ => false

/-- The name that an object has of itself. -/
def properName? (h : Heap) (r : Ref) : Option String :=
  match h.shape r with
  | .function f => some f.name
  | .cls c => some c.name
  | .builtin b => some b.name
  | _ => none

/-- The qualified name that an object has of itself. -/
def properQualname? (h : Heap) (r : Ref) : Option String :=
  match h.shape r with
  | .function f => some f.qualname
  | .cls c => some c.qualname
  | .builtin b => some b.qualname
  | _ => none

/-- What a function has besides its names. Of annotations it only matters that they are there. -/
def functionPart? (f : FunctionInfo) (name : String) : Option Value :=
  if name = "__code__" then some (.compiled f.code)
  else if name = "__defaults__" then
    some (if f.defaults = 0 then .datum .none else .defaults f.defaults)
  else if name = "__kwdefaults__" then
    some (.datum (if f.keywordDefaults = [] then .none
      else .dict (f.keywordDefaults.map fun key => (key, .none))))
  else if name = "__annotations__" then some (.datum (.dict []))
  else none

/-- What an object has of itself: names, the parts of a function and the module of a class. -/
def properAttribute? (h : Heap) (r : Ref) (name : String) : Option Value :=
  if name = "__name__" then (h.properName? r).map fun s => .datum (.str s)
  else if name = "__qualname__" then (h.properQualname? r).map fun s => .datum (.str s)
  else
    match h.shape r with
    | .function f => functionPart? f name
    | .cls c => if name = "__module__" then some (.datum (.str c.module)) else none
    | _ => none

/-- The object that the attributes of an object are read from: of a method the callable it binds. -/
def attributeHolderFrom (h : Heap) : Nat → Ref → Ref
  | 0, r => r
  | fuel + 1, r =>
    match h.shape r with
    | .method func _ => attributeHolderFrom h fuel func
    | _ => r

/-- The object that the attributes of an object are read from. -/
def attributeHolder (h : Heap) (r : Ref) : Ref := h.attributeHolderFrom h.size r

/-- The value of an attribute of an object that is no method. -/
def directAttribute? (h : Heap) (r : Ref) (name : String) : Option Value :=
  match h.properAttribute? r name with
  | some v => some v
  | none =>
    match h.shape r with
    | .cls _ => h.classAttribute? r name
    | _ =>
      match Keyed.find? name (h.ownAttributes r) with
      | some v => some v
      | none => (h.classOf? r).bind fun c => h.classAttribute? c name

/-- The value of an attribute. -/
def attribute? (h : Heap) (r : Ref) (name : String) : Option Value :=
  h.directAttribute? (h.attributeHolder r) name

/-- The plain data that a value is. -/
def datum? (h : Heap) : Value → Option Datum
  | .datum d => some d
  | .object r =>
    match h.shape r with
    | .datum d => some d
    | _ => none
  | _ => none

/-- Whether a value is nothing. -/
def isNothing (h : Heap) (v : Value) : Bool :=
  match h.datum? v with
  | some .none => true
  | _ => false

/-- Data are true or false; every other value is true, except a list without names. -/
def truthyValue (h : Heap) : Value → Bool
  | .names items => !items.isEmpty
  | v => ((h.datum? v).map Datum.truthy).getD true

/-- The number of items of a tuple, or of none where nothing stands for one. -/
def tupleSize? (h : Heap) : Value → Option Nat
  | .names items => some items.length
  | .defaults count => some count
  | v => if h.isNothing v then some 0 else none

/-- The keys of a dictionary, or of none where nothing stands for one. An object of a class that is
derived from that of dictionaries is an empty dictionary. -/
def keys? (h : Heap) (v : Value) : Option (List String) :=
  match h.datum? v with
  | some .none => some []
  | some (.dict entries) => some (entries.map (·.1))
  | some _ => none
  | none =>
    match v.object?.bind h.classOf? with
    | some cls => if (h.lineage cls).contains Catalog.dictClass then some [] else none
    | none => none

/-- The items of a value that can be gone through one by one: the letters of a text, the keys of a
dictionary. -/
def items? (h : Heap) : Value → Option (List Datum)
  | .names items => some (items.map .str)
  | v =>
    match h.datum? v with
    | some (.str s) => some (s.toList.map fun c => .str c.toString)
    | some (.list items) => some items
    | some (.dict entries) => some (entries.map fun entry => .str entry.1)
    | _ => none

/-- The string that a value is. -/
def text? (h : Heap) (v : Value) : Option String := (h.datum? v).bind Datum.text?

/-- The name of an object, if it is a string. -/
def name? (h : Heap) (r : Ref) : Option String := (h.attribute? r "__name__").bind h.text?

/-- The qualified name of an object, if it is a string. -/
def qualname? (h : Heap) (r : Ref) : Option String :=
  (h.attribute? r "__qualname__").bind h.text?

/-- What an object was made to look like. -/
def wrapped? (h : Heap) (r : Ref) : Option Value := h.attribute? r "__wrapped__"

/-- The flags of what stands for the code of an object, as far as they are a number. Any object may
have such flags as an attribute. -/
def flags? (h : Heap) : Value → Option Int
  | .code flags => flags.number?
  | .compiled c => some c.flavor.flag
  | .object r => ((h.attribute? r "co_flags").bind h.datum?).bind Datum.number?
  | _ => none

/-- The flags of the code of an object. -/
def codeFlags? (h : Heap) (r : Ref) : Option Int := (h.attribute? r "__code__").bind h.flags?

/-- Whether an object is a class. -/
def isClass (h : Heap) (r : Ref) : Bool :=
  match h.shape r with
  | .cls _ => true
  | _ => false

/-- Whether an object can be called. An instance can be called through its class only. -/
def callable (h : Heap) (r : Ref) : Bool :=
  match h.shape r with
  | .datum _ => false
  | .instanceOf c => (h.classAttribute? c "__call__").isSome
  | _ => true

/-- The code and the signature of a function, or of an object that has all that a function has: it can
be called, it is no class, and its name, code, default values and annotations could be those of a
function. -/
def asFunction? (h : Heap) (r : Ref) : Option (FunctionCode × Signature) :=
  let annotated := ((h.attribute? r "__annotations__").getD (.datum .none))
  match h.attribute? r "__code__", (h.attribute? r "__defaults__").bind h.tupleSize?,
    (h.attribute? r "__kwdefaults__").bind h.keys? with
  | some (.compiled c), some defaults, some keywordDefaults =>
    if h.callable r && !h.isClass r && (h.name? r).isSome && (h.keys? annotated).isSome then
      some (c, c.signature defaults keywordDefaults)
    else none
  | _, _, _ => none

/-- Whether the class of an instance gives it a dictionary and weak references. -/
def hasInstanceDict (h : Heap) (cls : Ref) : Bool := h.inherits cls fun c => !c.slots

/-- Whether an object can be referred to weakly. -/
def weaklyReferable (h : Heap) (r : Ref) : Bool :=
  match h.shape r with
  | .datum _ => false
  | .instanceOf c => h.hasInstanceDict c
  | .builtin b => b.weaklyReferable
  | _ => true

/-- What a class itself says of a finalizer. An attribute takes the place of the one that the class was
declared with, and it may be nothing. -/
def ownFinalizer? (h : Heap) (cls : Ref) : Option Bool :=
  match Keyed.find? "__del__" (h.ownAttributes cls), h.shape cls with
  | some v, _ => some !h.isNothing v
  | none, .cls c => if c.finalizer then some true else none
  | none, _ => none

/-- Whether the objects of a class have a finalizer. -/
def finalizes (h : Heap) (cls : Ref) : Bool :=
  ((h.lineage cls).findSome? h.ownFinalizer?).getD false

/-- Whether an object has a finalizer that can be found on it. -/
def hasFinalizer (h : Heap) (r : Ref) : Bool :=
  match h.shape r with
  | .cls _ => h.finalizes r
  | .method _ _ => false
  | _ =>
    match Keyed.find? "__del__" (h.ownAttributes r) with
    | some v => !h.isNothing v
    | none => (h.classOf? r).any h.finalizes

/-- The name of a class. -/
def className (h : Heap) (r : Ref) : String := (h.properName? r).getD ""

/-- The name of the type of an object. -/
def typeName (h : Heap) (r : Ref) : String :=
  match h.shape r with
  | .function _ => "function"
  | .cls c => c.metaclass
  | .instanceOf c => h.className c
  | .method _ _ => "method"
  | .builtin b => b.kind.typeName
  | .datum d => d.typeName
  | .partialOf p => h.className p.cls

/-- The module and the qualified name of a class. -/
def classPath (h : Heap) (r : Ref) : String :=
  match h.shape r with
  | .cls c => c.module ++ "." ++ c.qualname
  | _ => ""

/-- The module and the name of the type of an object. -/
def typePath (h : Heap) (r : Ref) : String :=
  match h.classOf? r with
  | some c => h.classPath c
  | none => "builtins." ++ h.typeName r

/-- Attributes of a function that are kept apart from its dictionary and that nothing depends on. -/
def setAside : List String := ["__module__", "__doc__"]

/-- Attributes that the classes of instances without a dictionary have. -/
def inClass : List String := ["__module__", "__doc__"]

/-- The attributes of a callable with fixed arguments that cannot be set. -/
def ofPartial : List String := ["func", "args", "keywords"]

/-- Attributes of a builtin callable that are computed. -/
def computed (kind : BuiltinKind) : List String :=
  ["__qualname__", "__doc__", "__text_signature__"] ++
    if kind == .function then ["__name__", "__self__"]
    else if kind == .methodWrapper then ["__name__", "__objclass__"]
    else []

/-- Attributes of a builtin callable that are parts of it. -/
def fixedParts (kind : BuiltinKind) : List String :=
  if kind == .function then []
  else if kind == .methodWrapper then ["__self__"]
  else ["__name__", "__objclass__"]

/-- The complaint about an attribute that an object without a dictionary does not take: it may be
computed, a part of the object, or found in the class of the object. -/
def refused (h : Heap) (r : Ref) (name : String) : Fault :=
  let type := h.typeName r
  match h.shape r with
  | .instanceOf c =>
    if inClass.contains name || (h.classAttribute? c name).isSome then .readOnlyAttribute type name
    else .noAttributeOf type name
  | .builtin b =>
    if (computed b.kind).contains name then .unwritableAttribute type name
    else if (fixedParts b.kind).contains name then .readOnly
    else if name = "__call__" then .readOnlyAttribute type name
    else .noAttributeOf type name
  | .method _ _ =>
    if name = "__doc__" then .unwritableAttribute type name
    else if name = "__func__" || name = "__self__" then .readOnly
    else if name = "__call__" then .readOnlyAttribute type name
    else .noAttributeOf type name
  | _ => if name = "__doc__" then .readOnlyAttribute type name else .noAttributeOf type name

/-- Sets the name of a function or a class, which has to be a string. -/
def rename (h : Heap) (r : Ref) (complaint : String) (value : Value) (shape : String → Shape) :
    Except Fault Heap :=
  match h.text? value with
  | some s => .ok (h.reshape r (shape s))
  | none => .error (.invalidCall complaint)

/-- The name of a class in complaints. A builtin one is told with its module. -/
def titleOf (c : ClassInfo) : String :=
  if c.builtin && c.module != "builtins" then c.module ++ "." ++ c.name else c.name

/-- The name of the type of a value, as complaints about values tell it. -/
def valueType (h : Heap) : Value → String
  | .datum d => d.typeName
  | .object r =>
    if h.classOf? r = some Catalog.partialClass then h.classPath Catalog.partialClass
    else h.typeName r
  | .code _ | .compiled _ => "code"
  | .names _ | .defaults _ => "tuple"

/-- Refuses a name of a class with a null character in it. -/
def checkClassName (name : String) : Except Fault Unit :=
  if name.toList.contains '\x00' then
    .error (Report.raise "ValueError" "type name must not contain null characters")
  else .ok ()

/-- The complaint about a name of a class that is no string. -/
def classNameComplaint (h : Heap) (cls name : String) (value : Value) : String :=
  "can only assign string to " ++ cls ++ "." ++ name ++ ", not '" ++ h.valueType value ++ "'"

/-- A part of a function that has to be of some type, or nothing. -/
def partOf (name type : String) (part : Option α) : Except Fault α :=
  match part with
  | some a => .ok a
  | none => .error (.invalidCall (name ++ " must be set to a " ++ type ++ " object"))

/-- Sets an attribute of a function. Its code stays: that of another function is refused as well. -/
def setOfFunction (h : Heap) (r : Ref) (f : FunctionInfo) (name : String) (value : Value) :
    Except Fault Heap :=
  if name = "__name__" then
    h.rename r "__name__ must be set to a string object" value fun s => .function { f with name := s }
  else if name = "__qualname__" then
    h.rename r "__qualname__ must be set to a string object" value
      fun s => .function { f with qualname := s }
  else if name = "__code__" then
    .error (.invalidCall "__code__ must be set to a code object")
  else if name = "__defaults__" then do
    let defaults ← partOf name "tuple" (h.tupleSize? value)
    return h.reshape r (.function { f with defaults })
  else if name = "__kwdefaults__" then do
    let keywordDefaults ← partOf name "dict" (h.keys? value)
    return h.reshape r (.function { f with keywordDefaults })
  else if name = "__annotations__" then do
    let _ ← partOf name "dict" (h.keys? value)
    return h
  else if setAside.contains name then .ok h
  else .ok (h.putAttributes r [(name, value)])

/-- Sets an attribute of a class. -/
def setOfClass (h : Heap) (r : Ref) (c : ClassInfo) (name : String) (value : Value) :
    Except Fault Heap :=
  if c.builtin then
    .error (.invalidCall
      ("cannot set '" ++ name ++ "' attribute of immutable type '" ++ titleOf c ++ "'"))
  else if name = "__name__" then do
    checkClassName ((h.text? value).getD "")
    h.rename r (h.classNameComplaint c.name name value) value fun s => .cls { c with name := s }
  else if name = "__qualname__" then
    h.rename r (h.classNameComplaint c.name name value) value fun s => .cls { c with qualname := s }
  else if name = "__module__" then
    .ok (h.reshape r (.cls { c with module := (h.text? value).getD c.module }))
  else if name = "__text_signature__" then .error (.unwritableAttribute "type" name)
  else if name = "__abstractmethods__" then
    .ok ((h.reshape r (.cls { c with abstract := h.truthyValue value })).putAttributes r
      [(name, value)])
  else .ok (h.putAttributes r [(name, value)])

/-- Whether a value is put where the written signature of an object is looked for. Only builtin callables
have one, so no other object takes it. -/
def writesSignature (h : Heap) (r : Ref) (name : String) (value : Value) : Bool :=
  name == "__text_signature__" && h.truthyValue value && !h.isClass r

/-- Sets an attribute of an object. -/
def setAttribute (h : Heap) (r : Ref) (name : String) (value : Value) : Except Fault Heap :=
  if h.writesSignature r name value then .error (.unwritableAttribute (h.typeName r) name)
  else
  match h.shape r with
  | .function f => h.setOfFunction r f name value
  | .cls c => h.setOfClass r c name value
  | .instanceOf c =>
    if h.hasInstanceDict c then .ok (h.putAttributes r [(name, value)])
    else .error (h.refused r name)
  | .partialOf _ =>
    if ofPartial.contains name then .error .readOnly
    else .ok (h.putAttributes r [(name, value)])
  | .builtin b =>
    if b.kind == .function && name = "__module__" then .ok h else .error (h.refused r name)
  | .method _ _ | .datum _ => .error (h.refused r name)

/-- Whether an object has a module or a documentation. -/
def hasAside (h : Heap) (r : Ref) (name : String) : Bool :=
  match h.shape (h.attributeHolder r), name with
  | .function _, _ => setAside.contains name
  | .builtin b, "__module__" => b.kind == .function
  | .datum _, "__module__" => false
  | _, "__module__" => true
  | _, "__doc__" => true
  | _, _ => false

/-- The value that is copied when an object is made to look like another one. Nothing depends on what
is set aside, so nothing stands for it. -/
def copiedAttribute? (h : Heap) (r : Ref) (name : String) : Option Value :=
  match h.attribute? r name with
  | some v => some v
  | none => if h.hasAside r name then some (.datum .none) else none

/-- The attributes in the dictionary of an object, for copying. -/
def copiedAttributes (h : Heap) (r : Ref) : Attributes := h.ownAttributes (h.attributeHolder r)

/-- Whether an object is a callable with fixed arguments. -/
def isPartial (h : Heap) (r : Ref) : Bool :=
  match h.shape r with
  | .partialOf _ => true
  | _ => false

/-- Looking at the dictionary of a callable with fixed arguments gives it one. -/
def touchDict (h : Heap) (r : Ref) : Heap := if h.isPartial r then h.withDict r else h

/-- Puts the attributes of one object into the dictionary of another. -/
def mergeAttributes (h : Heap) (r source : Ref) : Except Fault Heap :=
  let holder := h.attributeHolder r
  let merged :=
    let h := (h.withDict holder).touchDict (h.attributeHolder source)
    h.putAttributes holder (h.copiedAttributes source)
  let missing : Except Fault Heap := .error (.noAttributeOf (h.typeName holder) "__dict__")
  match h.shape holder with
  | .cls _ => .error (.noAttributeOf "mappingproxy" "update")
  | .datum _ | .builtin _ => missing
  | .instanceOf c => if h.hasInstanceDict c then .ok merged else missing
  | _ => .ok merged

/-- What the end of a chain of wrapped objects is, or `none` if the chain comes back to itself. The
chain also ends at a class, and where `stop` says so. -/
def unwrapFrom (h : Heap) (stop : Ref → Bool) : Nat → Ref → Option Value
  | 0, _ => none
  | fuel + 1, r =>
    if h.isClass r || stop r then some (.object r)
    else
      match h.wrapped? r with
      | none => some (.object r)
      | some (.object next) => unwrapFrom h stop fuel next
      | some v => some v

/-- What an object looks like in the end. -/
def unwrap (h : Heap) (stop : Ref → Bool) (r : Ref) : Option Value :=
  h.unwrapFrom stop (h.size + 1) r

end Heap

end CallableKinds
