import CallableKinds.Heap.Derivation

/-!
# Allocating objects

Whether a blank object of a class can be made in the way of all objects, and what the complaint is if
not. It is refused for a class whose objects have a layout of their own, and for a class of which
methods are missing. The complaints tell the names of classes and of methods, which may be any text.
-/

namespace CallableKinds

namespace Heap

/-- Whether a value is the builtin function that allocates objects. -/
def isAllocator (h : Heap) (v : Value) : Bool :=
  match v.object?.map h.shape with
  | some (.builtin b) => b.name == "__new__"
  | _ => false

/-- Whether the objects of a class are made by code of its own, as far as the class itself says so. -/
def ownConstructor? (h : Heap) (cls : Ref) : Option Bool :=
  match Keyed.find? "__new__" (h.ownAttributes cls), h.shape cls with
  | some v, _ => some !h.isAllocator v
  | none, .cls c =>
    if c.builtin then some false
    else if cls = Catalog.trackedPartialClass then some true
    else none
  | none, _ => none

/-- Whether the objects of a class are made by code of its own or of a class above it. -/
def constructsByCode (h : Heap) (cls : Ref) : Bool :=
  ((h.lineage cls).findSome? h.ownConstructor?).getD false

/-- The first of some classes whose layout extends those of the others. -/
def leading? (h : Heap) : List Ref → Option Ref
  | [] => none
  | first :: rest => some <| rest.foldl
      (fun best next => if (h.lineage (h.layoutOf best)).contains (h.layoutOf next) then best else next)
      first

/-- The class that objects of a class are allocated by, found in so many steps: the first one that
does not make its objects by code. -/
def allocatorFrom (h : Heap) : Nat → Ref → Ref
  | 0, cls => cls
  | fuel + 1, cls =>
    match h.shape cls with
    | .cls c =>
      if h.constructsByCode cls then ((h.leading? c.bases).map (allocatorFrom h fuel)).getD cls
      else cls
    | _ => cls

/-- The name of the class that objects of a class are allocated by. -/
def allocatorTitle (h : Heap) (cls : Ref) (c : ClassInfo) : String :=
  match h.shape (h.allocatorFrom h.size cls) with
  | .cls a => titleOf a
  | _ => titleOf c

/-- The complaint about a class whose objects have a layout of their own. -/
def layoutComplaint (cls allocator : String) : String :=
  "object.__new__(" ++ cls ++ ") is not safe, use " ++ allocator ++ ".__new__()"

/-- The complaint about a class of which methods are missing, from what it has for their names. Of
what lists no names only that is told. -/
def abstractComplaint (h : Heap) (c : ClassInfo) (missing : Value) : String :=
  match (h.items? missing).map fun items => items.mapM Datum.text? with
  | none => "'" ++ h.valueType missing ++ "' object is not iterable"
  | some none => "expected str instance"
  | some (some names) =>
    "Can't instantiate abstract class " ++ titleOf c ++ " with abstract method" ++
      (if names.length = 1 then "" else "s") ++ " " ++
      ", ".intercalate (names.mergeSort fun a b => a ≤ b)

/-- The complaint about a class of which methods are missing, if its objects are made in the way of all
objects. -/
def abstractRefusal? (h : Heap) (cls : Ref) (c : ClassInfo) : Option String :=
  if c.abstract && h.layoutOf cls == Catalog.objectClass then
    (Keyed.find? "__abstractmethods__" (h.ownAttributes cls)).map (h.abstractComplaint c)
  else none

/-- The complaint about allocating an object of a class, if that is refused. -/
def allocationComplaint? (h : Heap) (cls : Ref) : Option String :=
  match h.shape cls with
  | .cls c =>
    if h.layoutOf cls ≠ Catalog.objectClass then
      some (layoutComplaint (titleOf c) (h.allocatorTitle cls c))
    else h.abstractRefusal? cls c
  | _ => none

end Heap

end CallableKinds
