import CallableKinds.Heap

/-!
# The catalog of builtin objects

The objects that every program starts with. They stand at fixed places of the heap and never die.
-/

namespace CallableKinds

namespace Catalog

/-! Places of the builtin classes. -/

def objectClass : Ref := 0
def typeClass : Ref := 1
def intClass : Ref := 2
def dictClass : Ref := 3
def strClass : Ref := 4
def exceptionClass : Ref := 5
def lookupErrorClass : Ref := 6

/-- The class of callables with fixed arguments. -/
def partialClass : Ref := 7

/-- The subclass of it whose objects report to the active tracker when they are made. -/
def trackedPartialClass : Ref := 8

/-- What calls of an object with fixed arguments go through. -/
def partialCall : Ref := 9

/-- The function that makes a function look like another one. -/
def updateWrapper : Ref := 10

/-- The same, reporting to the active tracker. -/
def trackedUpdateWrapper : Ref := 11

/-! Places of receivers and of slot wrappers. -/

def letterA : Ref := 12
def appendedList : Ref := 13
def sortedList : Ref := 14
def strGetItem : Ref := 15
def typeCall : Ref := 16

/-- The metaclass of the class whose objects report. -/
def trackedMetaclass : String := "_PartialType"

/-- A builtin class. -/
def builtinClass (name : String) (bases : List Ref) (finalizer : Bool)
    (constructor : Option Signature) : Shape :=
  .cls ⟨"builtins", name, name, "type", bases, true, finalizer, true, constructor, false⟩

/-- A parameter that is positional only. -/
def positional (name : String) (hasDefault : Bool) : Param := ⟨name, .positionalOnly, hasDefault⟩

/-- The signature of a slot that takes any arguments after its receiver. -/
def slotSignature : Signature := positional "self" false :: Signature.anything

/-- A builtin function of a module. -/
def moduleFunction (name : String) (signature : Option Signature) : Shape :=
  .builtin ⟨.function, name, name, "<built-in function " ++ name ++ ">", signature, none, none, true⟩

/-- A builtin function that is bound to an object of a type. -/
def boundFunction (name type ownerType : String) (signature : Signature) (receiver : Ref) : Shape :=
  .builtin ⟨.function, name, type ++ "." ++ name,
    "<built-in method " ++ name ++ " of " ++ ownerType ++ " object at 0x0>", some signature,
    some receiver, none, true⟩

/-- A descriptor in the class of a type. -/
def descriptor (kind : BuiltinKind) (word name type : String) (signature : Signature) : Shape :=
  .builtin ⟨kind, name, type ++ "." ++ name,
    "<" ++ word ++ " '" ++ name ++ "' of '" ++ type ++ "' objects>", some signature, none, none,
    false⟩

/-- A slot that is bound to an object. -/
def boundSlot (name type ownerType : String) (signature : Signature) (wrapped receiver : Ref) :
    Shape :=
  .builtin ⟨.methodWrapper, name, type ++ "." ++ name,
    "<method-wrapper '" ++ name ++ "' of " ++ ownerType ++ " object at 0x0>", some signature,
    some receiver, some wrapped, false⟩

/-- The parameters of the functions that make a function look like another one. -/
def updateSignature : Signature :=
  [⟨"wrapper", .positional, false⟩, ⟨"wrapped", .positional, false⟩,
    ⟨"assigned", .positional, true⟩, ⟨"updated", .positional, true⟩]

/-- A function that makes a function look like another one. -/
def updater (tracked : Bool) : Shape :=
  .function (.ofSignature "update_wrapper" "update_wrapper" .plain updateSignature
    (.updateWrapper tracked))

/-- The builtin objects that others refer to, in the order of their places. -/
def anchors : List Shape := [
  builtinClass "object" [] false (some []),
  builtinClass "type" [objectClass] false none,
  builtinClass "int" [objectClass] false none,
  builtinClass "dict" [objectClass] false none,
  builtinClass "str" [objectClass] false none,
  builtinClass "Exception" [objectClass] false none,
  builtinClass "LookupError" [exceptionClass] false none,
  .cls ⟨"functools", "partial", "partial", "type", [objectClass], false, false, true, none, false⟩,
  .cls ⟨"functools", "partial", "partial", trackedMetaclass, [partialClass], false, false, false,
    some [⟨"args", .variadic, false⟩, ⟨"keywords", .keywords, false⟩], false⟩,
  .builtin ⟨.slotWrapper, "__call__", "partial.__call__",
    "<slot wrapper '__call__' of 'functools.partial' objects>", some slotSignature, none, none,
    false⟩,
  updater false,
  updater true,
  .datum (.str "a"),
  .datum (.list []),
  .datum (.list []),
  descriptor .slotWrapper "slot wrapper" "__getitem__" "str"
    [positional "self" false, positional "key" false],
  descriptor .slotWrapper "slot wrapper" "__call__" "type" slotSignature]

/-- The other builtin objects, by the path that leads to each. -/
def leaves : List (String × Shape) := [
  ("generator", builtinClass "generator" [objectClass] true (some [])),
  ("function", builtinClass "function" [objectClass] false (some [⟨"code", .positional, false⟩,
    ⟨"globals", .positional, false⟩, ⟨"name", .positional, true⟩, ⟨"argdefs", .positional, true⟩,
    ⟨"closure", .positional, true⟩])),
  ("NoneType", builtinClass "NoneType" [objectClass] false none),
  ("bool", builtinClass "bool" [intClass] false none),
  ("OSError", builtinClass "OSError" [exceptionClass] false none),
  ("KeyError", builtinClass "KeyError" [lookupErrorClass] false none),
  ("len", moduleFunction "len" (some [positional "obj" false])),
  ("isinstance", moduleFunction "isinstance"
    (some [positional "obj" false, positional "class_or_tuple" false])),
  ("max", moduleFunction "max" none),
  ("getattr", moduleFunction "getattr" none),
  ("abs", moduleFunction "abs" (some [positional "x" false])),
  ("[].append", boundFunction "append" "list" "list" [positional "object" false] appendedList),
  ("[].sort", boundFunction "sort" "list" "list"
    [⟨"key", .keywordOnly, true⟩, ⟨"reverse", .keywordOnly, true⟩] sortedList),
  ("dict.fromkeys", boundFunction "fromkeys" "dict" "type"
    [positional "iterable" false, positional "value" true] dictClass),
  ("'a'.upper", boundFunction "upper" "str" "str" [] letterA),
  ("object.__new__", boundFunction "__new__" "object" "type" Signature.anything objectClass),
  ("dict.__dict__['fromkeys']", descriptor .classMethodDescriptor "method" "fromkeys" "dict"
    [positional "type" false, positional "iterable" false, positional "value" true]),
  ("str.upper", descriptor .methodDescriptor "method" "upper" "str" [positional "self" false]),
  ("str.join", descriptor .methodDescriptor "method" "join" "str"
    [positional "self" false, positional "iterable" false]),
  ("dict.get", descriptor .methodDescriptor "method" "get" "dict"
    [positional "self" false, positional "key" false, positional "default" true]),
  ("object.__init__", descriptor .slotWrapper "slot wrapper" "__init__" "object" slotSignature),
  ("'a'.__getitem__", boundSlot "__getitem__" "str" "str" [positional "key" false] strGetItem
    letterA),
  ("int.__call__", boundSlot "__call__" "type" "type" Signature.anything typeCall intClass)]

/-- The paths to the builtin objects that others refer to. -/
def anchorPaths : Keyed String Ref := [
  ("object", objectClass), ("type", typeClass), ("int", intClass), ("dict", dictClass),
  ("str", strClass), ("Exception", exceptionClass), ("LookupError", lookupErrorClass),
  ("str.__getitem__", strGetItem), ("type.__call__", typeCall)]

/-- The paths to all builtin objects. -/
def paths : Keyed String Ref :=
  anchorPaths ++ leaves.mapIdx fun i leaf => (leaf.1, anchors.length + i)

/-- The object at the end of a path. -/
def find? (path : String) : Option Ref := Keyed.find? path paths

end Catalog

namespace Heap

/-- The heap of the builtin objects. The function that reports looks like the one that does not. -/
def initial : Heap :=
  let shapes := Catalog.anchors ++ Catalog.leaves.map (·.2)
  let h : Heap := ⟨shapes.map (⟨·, none⟩), []⟩
  h.putAttributes Catalog.trackedUpdateWrapper [("__wrapped__", .object Catalog.updateWrapper)]

end Heap

end CallableKinds
