import CallableKinds.Heap.Attribute

/-!
# Derivations

Which bases a class can be made of. Their metaclasses have to be comparable, and so have the layouts
that they give to objects; none of them may be closed, and their lineages must not contradict each
other. Of several faults the first in this order is told.
-/

namespace CallableKinds

namespace Heap

/-- The most general metaclass. -/
def plainMetaclass : String := "type"

/-- The more special of two metaclasses; two different ones below the most general one cannot be
compared. -/
def joinMetaclass (a b : String) : Option String :=
  if a = b || b = plainMetaclass then some a else if a = plainMetaclass then some b else none

/-- The metaclass of an object that is a class. -/
def metaclass? (h : Heap) (r : Ref) : Option String :=
  match h.shape r with
  | .cls c => some c.metaclass
  | _ => none

/-- The complaint about bases whose metaclasses cannot be compared. -/
def metaclassConflict : Fault := .invalidCall ("metaclass conflict: the metaclass of a derived " ++
  "class must be a (non-strict) subclass of the metaclasses of all its bases")

/-- The most special metaclass of a class and its bases. -/
def metaclassOver (h : Heap) (own : String) : List Ref → Except Fault String
  | [] => .ok own
  | base :: rest =>
    match (h.metaclass? base).bind (joinMetaclass own) with
    | some m => metaclassOver h m rest
    | none => .error metaclassConflict

/-- The builtin classes that no class can be derived from. -/
def closedClasses : List String := ["bool", "function", "generator", "NoneType"]

/-- The builtin classes whose objects are laid out like those of the class above them. -/
def plainLayouts : List String := ["LookupError", "KeyError"]

/-- Whether a class is builtin and has one of some names. -/
def isBuiltinAmong (h : Heap) (names : List String) (r : Ref) : Bool :=
  match h.shape r with
  | .cls c => c.builtin && names.contains c.name
  | _ => false

/-- Whether a class is builtin and its objects have a layout of their own. -/
def hasOwnLayout (h : Heap) (r : Ref) : Bool :=
  match h.shape r with
  | .cls c => c.builtin && !plainLayouts.contains c.name
  | _ => false

/-- The class whose layout the objects of a class have. -/
def layoutOf (h : Heap) (r : Ref) : Ref :=
  ((h.lineage r).find? h.hasOwnLayout).getD Catalog.objectClass

/-- Checks that the bases are open and that of any two layouts one extends the other; `layout` is
the most extended one so far. -/
def checkLayouts (h : Heap) (layout : Ref) : List Ref → Except Fault Unit
  | [] => .ok ()
  | base :: rest =>
    let next := h.layoutOf base
    if h.isBuiltinAmong closedClasses base then
      .error (.invalidCall ("type '" ++ h.className base ++ "' is not an acceptable base type"))
    else if (h.lineage layout).contains next then checkLayouts h layout rest
    else if (h.lineage next).contains layout then checkLayouts h next rest
    else .error (.invalidCall "multiple bases have instance lay-out conflict")

/-- The first base that is named twice. -/
def repeated? : List Ref → Option Ref
  | [] => none
  | base :: rest => if rest.contains base then some base else repeated? rest

/-- Checks that the lineages of the bases do not contradict each other. -/
def checkOrder (h : Heap) (bases : List Ref) : Except Fault Unit :=
  match repeated? bases with
  | some base => .error (.invalidCall ("duplicate base class " ++ h.className base))
  | none =>
    match Lineage.merge (bases.map h.lineage ++ [bases]) with
    | .ok _ => .ok ()
    | .error heads =>
      .error (.invalidCall ("Cannot create a consistent method resolution\norder (MRO) for bases " ++
        ", ".intercalate (heads.eraseDups.map h.className)))

/-- The metaclass of a class with a given name that is derived from the given bases, if there can be
such a class. -/
def derivable (h : Heap) (name metaclass : String) (bases : List Ref) : Except Fault String := do
  let metaclass ← h.metaclassOver metaclass bases
  h.checkLayouts Catalog.objectClass bases
  checkClassName name
  h.checkOrder bases
  return metaclass

end Heap

end CallableKinds
