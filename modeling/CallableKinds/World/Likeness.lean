import CallableKinds.World

/-!
# Making one object look like another

The wrapper takes over some attributes of the wrapped object, then all that is in its dictionary,
and at last remembers it. A failure on the way leaves what was done so far, but nothing is reported
then.
-/

namespace CallableKinds

namespace Heap

/-- The attributes that are taken over if no others are asked for. -/
def usualNames : List String := ["__module__", "__name__", "__qualname__", "__doc__",
  "__annotations__"]

/-- The attribute whose content is merged. -/
def dictName : String := "__dict__"

/-- The attribute that leads to the wrapped object. -/
def wrappedName : String := "__wrapped__"

/-- Takes over attributes by name, as far as the wrapped object has them. -/
def takeOver (h : Heap) (wrapper wrapped : Ref) : List String → Heap × Except Fault Unit
  | [] => (h, .ok ())
  | name :: rest =>
    match h.copiedAttribute? wrapped name with
    | none => takeOver h wrapper wrapped rest
    | some v =>
      match h.setAttribute wrapper name v with
      | .ok h => takeOver h wrapper wrapped rest
      | .error f => (h, .error f)

/-- Makes the wrapper look like the wrapped object. -/
def imitate (h : Heap) (wrapper wrapped : Ref) (assigned updated : List String) :
    Heap × Except Fault Unit :=
  match h.takeOver wrapper wrapped assigned with
  | (h, .error f) => (h, .error f)
  | (h, .ok ()) =>
    let merged := if updated.contains dictName then h.mergeAttributes wrapper wrapped else .ok h
    match merged with
    | .error f => (h, .error f)
    | .ok h =>
      match h.setAttribute wrapper wrappedName (.object wrapped) with
      | .ok h => (h, .ok ())
      | .error f => (h, .error f)

end Heap

namespace World

/-- Makes the wrapper look like the wrapped object and reports that, if `tracked` says so. -/
def imitate (w : World) (tracked : Bool) (wrapper wrapped : Ref) (assigned updated : List String) :
    World × Except Fault Ref :=
  match w.heap.imitate wrapper wrapped assigned updated with
  | (heap, .error f) => ({ w with heap }, .error f)
  | (heap, .ok ()) =>
    let w := { w with heap }
    (if tracked then w.report wrapped wrapper .proxy else w, .ok wrapper)

end World

end CallableKinds
