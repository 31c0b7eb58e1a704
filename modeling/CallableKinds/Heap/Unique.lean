import CallableKinds.Heap

/-!
# Unique data

Small numbers, truth values and texts of at most one letter exist only once: wherever such a datum
is met, it is the same object.
-/

namespace CallableKinds

namespace Datum

/-- Whether there is only one object of a datum. -/
def isUnique : Datum → Bool
  | none | bool _ => true
  | int n => -5 ≤ n && n ≤ 256
  | str s => s.length ≤ 1 && s.toList.all fun c => c.toNat < 256
  | list _ | dict _ => false

end Datum

namespace Heap

/-- Whether an object is a datum with a given written form. -/
def isDatum (h : Heap) (printed : String) (r : Ref) : Bool :=
  match h.shape r with
  | .datum d => d.print == printed
  | _ => false

/-- The object that is already there for a datum of which there is only one. Unique data have
different written forms. -/
def existing? (h : Heap) (d : Datum) : Option Ref :=
  if d.isUnique then (List.range h.size).find? (h.isDatum d.print) else none

end Heap

end CallableKinds
