import CallableKinds.Heap.Print

/-!
# Routines

What runs when an object is called: a function, a builtin or a class, and the receiver that it is
bound to. A bound method leads to the callable it binds, one step only; an instance leads to its
`__call__` and on to what that leads to.
-/

namespace CallableKinds

/-- The code that serves the calls of an object. -/
structure Routine where
  func : Ref
  receiver : Option Ref
  /-- Calls construct an object of a class. -/
  constructs : Bool
  deriving Repr, DecidableEq, Inhabited

namespace Heap

/-- What an instance shows as its `__call__`: an attribute of its own, or what its class has, where a
function is bound to the instance. -/
inductive CallSlot where
  | own (v : Value)
  | inherited (v : Value)
  | missing

/-- What an object without code of its own shows as its `__call__`. -/
def callSlot (h : Heap) (r : Ref) (cls : Ref) : CallSlot :=
  match Keyed.find? "__call__" (h.ownAttributes r) with
  | some v => .own v
  | none =>
    match h.classAttribute? cls "__call__" with
    | some v => .inherited v
    | none => .missing

/-- The routine of a descriptor that is looked up on an instance. It is bound to the instance if it
belongs to the class of all objects; instances of other builtin classes are not declared. -/
def boundDescriptor (h : Heap) (r slot : Ref) (b : BuiltinInfo) : Except Fault Routine :=
  let subject := "descriptor '" ++ b.name ++ "' "
  if b.owner = h.className Catalog.objectClass then .ok ⟨slot, some r, false⟩
  else if b.kind = .classMethodDescriptor then
    .error (.invalidCall (subject ++ "requires a subtype of '" ++ b.owner ++ "' but received '" ++
      h.typeName r ++ "'"))
  else
    .error (.invalidCall (subject ++ "for '" ++ b.owner ++ "' objects doesn't apply to a '" ++
      h.typeName r ++ "' object"))

/-- The routine of an object, found in so many steps. -/
def routineFrom (h : Heap) : Nat → Ref → Except Fault Routine
  | 0, _ => .error .endlessCall
  | fuel + 1, r =>
    let follow : Value → Except Fault Routine := fun
      | .object next => routineFrom h fuel next
      | v => .error (.notCallable (h.printValue v))
    let called (cls : Ref) (missing : Except Fault Routine) : Except Fault Routine :=
      match h.callSlot r cls with
      | .own v => follow v
      | .inherited (.object slot) =>
        match h.shape slot with
        | .function _ => .ok ⟨slot, some r, false⟩
        | .builtin b => if b.bindsReceiver then h.boundDescriptor r slot b else follow (.object slot)
        | _ => follow (.object slot)
      | .inherited v => follow v
      | .missing => missing
    match h.shape r with
    | .function _ => .ok ⟨r, none, false⟩
    | .cls _ => .ok ⟨r, none, true⟩
    | .method func receiver => .ok ⟨func, some receiver, false⟩
    | .builtin b => .ok ⟨b.wrapped.getD r, b.receiver, false⟩
    | .datum d => .error (.notCallable d.print)
    | .partialOf p => called p.cls (.ok ⟨Catalog.partialCall, some r, false⟩)
    | .instanceOf c => called c (.error (.notCallable (h.print r)))

/-- The routine of an object. More steps than there are objects lead back to an object that was
passed, and so nowhere. -/
def routine (h : Heap) (r : Ref) : Except Fault Routine := h.routineFrom (h.size + 1) r

end Heap

namespace Routine

/-- The last name before the own one in a qualified name. -/
def ownerIn (qualname : String) : Option String :=
  match (qualname.splitOn ".").reverse with
  | _ :: owner :: _ => if owner = "<locals>" then none else some owner
  | _ => none

/-- The name of the class that the qualified name of a routine tells. -/
def ownerName (h : Heap) (r : Routine) : Option String := (h.qualname? r.func).bind ownerIn

/-- Whether a routine belongs to an object or a class. -/
def isMember (h : Heap) (r : Routine) : Bool :=
  !r.constructs && (r.receiver.isSome || (r.ownerName h).isSome)

/-- The written form of a routine. -/
def print (h : Heap) (r : Routine) : String :=
  "Callable(" ++ h.print r.func ++ ", self_obj=" ++ (r.receiver.elim "None" h.print) ++ ", init=" ++
    (Datum.bool r.constructs).print ++ ")"

end Routine

namespace Heap

/-- The callable behind objects that fix arguments. -/
def unfixFrom (h : Heap) : Nat → Ref → Ref
  | 0, r => r
  | fuel + 1, r =>
    match h.shape r with
    | .partialOf p => unfixFrom h fuel p.func
    | _ => r

/-- What the calls of an object give, as far as it is a function behind methods and fixed arguments,
or has all that a function has. -/
def flavor (h : Heap) (r : Ref) : Flavor :=
  match h.asFunction? (h.unfixFrom h.size (h.attributeHolder r)) with
  | some (c, _) => c.flavor
  | none => .plain

end Heap

end CallableKinds
