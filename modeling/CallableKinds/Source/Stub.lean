import CallableKinds.Heap.Signature
import CallableKinds.Routine

/-!
# Stubs

The text that stands for a callable without source text: the head of a definition with the
signature of the callable, or the call that makes its class. Bodies are left out.
-/

namespace CallableKinds

namespace Heap

/-- The name that an object is defined under in a stub. -/
def stubName (h : Heap) (r : Ref) : String := (h.name? r).getD (h.typeName r)

/-- The signature in a stub; any arguments if it is not known. -/
def stubSignature (h : Heap) (r : Ref) : Except Fault Signature :=
  return (← h.signature? r).getD Signature.anything

/-- The names of the classes that a class is derived from. -/
def baseNames (h : Heap) (c : ClassInfo) : List String := c.bases.map h.className

/-- A tuple of names; a single one has a comma behind it. -/
def nameTuple : List String → String
  | [name] => "(" ++ name ++ ",)"
  | names => "(" ++ ", ".intercalate names ++ ")"

/-- The stub of a class. -/
def classStub (name : String) (bases : List String) : String :=
  "type(" ++ quoteString name ++ ", " ++ nameTuple bases ++ ", \x7b...\x7d)"

/-- The stub of an anonymous function. -/
def lambdaStub (s : Signature) : String :=
  "lambda" ++ (if s.printParams = "" then "" else " " ++ s.printParams) ++ ": ..."

/-- The stub of a routine. -/
def routineStub (isAsync : Bool) (name : String) (s : Signature) : String :=
  (if isAsync then "async def " else "def ") ++ name ++ s.print ++ ": ..."

/-- The stub of an object that has a given signature, which the stub of a class does not show. -/
def stubWith (h : Heap) (r : Ref) (s : Signature) : String :=
  match h.shape r with
  | .cls c => classStub (h.stubName r) (h.baseNames c)
  | _ =>
    if h.stubName r = "<lambda>" then lambdaStub s
    else routineStub (h.flavor r).isAsync (h.stubName r) s

/-- The stub of an object. It fails only if the signature of the object cannot be told. -/
def stub (h : Heap) (r : Ref) : Except Fault String :=
  match h.shape r with
  | .cls _ => return h.stubWith r []
  | _ => return h.stubWith r (← h.stubSignature r)

end Heap

end CallableKinds
