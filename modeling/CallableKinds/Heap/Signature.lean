import CallableKinds.Heap.Attribute

/-!
# Signatures of objects

The signature that a caller of an object sees. An object that was made to look like another one has
the signature of that one; a bound method has the signature of the callable it binds without the
first parameter; an instance is called through its class, unless it has all that a function has. The
written signatures of builtin callables are declared with them; no other object has a written one.
-/

namespace CallableKinds

namespace Heap

/-- Whether an object is a bound method. -/
def isMethod (h : Heap) (r : Ref) : Bool :=
  match h.shape r with
  | .method _ _ => true
  | _ => false

/-- The signature of a class: that of the constructor it was declared with, or of one above it, or no
parameters at all for a class that only has the constructor of every object. -/
def classSignature? (h : Heap) (r : Ref) (c : ClassInfo) : Option Signature :=
  if c.constructor.isSome then c.constructor
  else if c.builtin then none
  else
    let special := fun a => match h.shape a with
      | .cls info => a != Catalog.objectClass && (info.builtin || info.constructor.isSome)
      | _ => false
    match (h.lineage r).find? special with
    | none => some []
    | some a =>
      match h.shape a with
      | .cls info => if info.builtin then none else info.constructor
      | _ => none

/-- What a signature is read from, one object further on. -/
abbrev SignatureReader := Ref → Except Fault (Option Signature)

/-- The signature of what the class of an object has for an attribute, as the attribute is found on the
object. A function is bound to the object, and so is a descriptor of the class of all objects; no other
descriptor can be bound. Anything else is found as it is. -/
def slotSignature? (h : Heap) (read : SignatureReader) (slot : Ref) :
    Except Fault (Option Signature) :=
  match h.shape slot with
  | .function _ => return (← read slot).bind Signature.bound
  | .builtin b =>
    if !b.bindsReceiver then read slot
    else if b.owner = h.className Catalog.objectClass then return b.signature.bind Signature.bound
    else return none
  | _ => read slot

/-- Whether what the class of an object has for an attribute is bound when it is found on the object. -/
def isBound (h : Heap) (slot : Ref) : Bool :=
  match h.shape slot with
  | .function _ => true
  | .builtin b => b.bindsReceiver
  | _ => false

/-- What an object looks like because its class says so, if that is bound to the object. -/
def boundWrapped? (h : Heap) (r : Ref) : Option Ref :=
  if Keyed.has "__wrapped__" (h.ownAttributes r) then none
  else
    match (h.classOf? r).bind fun cls => h.classAttribute? cls "__wrapped__" with
    | some (.object slot) => if h.isBound slot then some slot else none
    | _ => none

/-- What an object says of its signature itself. -/
def statedSignature? (h : Heap) (r : Ref) : Option Value := h.attribute? r "__signature__"

/-- Whether a chain of wrapped objects ends with an object though that looks like another one. -/
def endsWrapping (h : Heap) (r : Ref) : Bool :=
  h.isMethod r || (h.statedSignature? r).isSome || (h.boundWrapped? r).isSome

/-- The signature of an object by what it is. Nothing has the signature of the slot that serves the
calls of classes. -/
def plainSignature (h : Heap) (read : SignatureReader) (r : Ref) : Except Fault (Option Signature) :=
  match h.asFunction? r, h.shape r with
  | some (_, s), _ => return some s
  | none, .cls c => return h.classSignature? r c
  | none, .builtin b => return b.signature
  | none, .partialOf p =>
    return (← read p.func).bind fun s => s.fixed p.args.length (p.keywords.map (·.1))
  | none, .instanceOf c =>
    match h.classAttribute? c "__call__" with
    | some (.object slot) => h.slotSignature? read slot
    | _ => return none
  | none, .datum .none => return some Catalog.slotSignature
  | none, _ => return none

/-- The signature of the object that a chain of wrapped objects ends with. Nothing in a heap is a
signature, so an object that states one has none, unless it states nothing. -/
def signatureOf (h : Heap) (read : SignatureReader) (r : Ref) : Except Fault (Option Signature) :=
  match h.shape r with
  | .method func _ => return (← read func).bind Signature.bound
  | _ =>
    match h.statedSignature? r, h.boundWrapped? r with
    | some v, _ => if h.isNothing v then h.plainSignature read r else return none
    | none, some slot => h.slotSignature? read slot
    | none, none => h.plainSignature read r

/-- The signature of an object, through so many objects inside each other. -/
def signatureFrom (h : Heap) : Nat → SignatureReader
  | 0, _ => .error .endlessSignature
  | fuel + 1, r =>
    if h.callable r then
      match h.unwrap h.endsWrapping r with
      | some (.object s) => h.signatureOf (signatureFrom h fuel) s
      | some (.datum .none) => .ok (some Catalog.slotSignature)
      | _ => .ok none
    else .ok none

/-- The signature of an object, if it has one. It fails if objects inside each other come back to one
of them. -/
def signature? (h : Heap) (r : Ref) : Except Fault (Option Signature) :=
  h.signatureFrom (h.size + 1) r

end Heap

end CallableKinds
