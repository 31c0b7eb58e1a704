import CallableKinds.Classifier
import CallableKinds.Heap.Unique
import CallableKinds.World.Call
import CallableKinds.World.Lifetime

/-!
# Sessions

A world with names for its objects, its trackers, and the normalizers and classifiers that were set
up in it. The names keep objects alive. The tracker, the normalizer and the classifier that every
program has are there from the start.
-/

namespace CallableKinds

/-- A classifier and the number of the normalizer that it asks for texts. -/
structure Station where
  classifier : Classifier
  normalizer : Nat

/-- A world and the names in it. Trackers, normalizers and classifiers are found by number. -/
structure Session where
  world : World
  names : Keyed String Ref
  trackerNames : Keyed String Nat
  normalizers : List Normalizer
  normalizerNames : Keyed String Nat
  stations : List Station
  stationNames : Keyed String Nat
  /-- The identities of the texts that were given last, by normalizer and name of the object. -/
  given : Keyed (Nat × String) (Option Nat)

/-- A step in a session, which may fail. What it did before it failed remains. -/
abbrev InSession (α : Type) := ExceptT Fault (StateM Session) α

namespace Session

/-- The name of the tracker that every program has. -/
def mainTrackerName : String := "default"

/-- The number of the normalizer that every program has. -/
def mainNormalizer : Nat := 0

/-- The number of the classifier that every program has. -/
def mainStation : Nat := 0

/-- The session at the start. -/
def initial : Session where
  world := .initial
  names := []
  trackerNames := [(mainTrackerName, World.mainTracker)]
  normalizers := [.standard]
  normalizerNames := []
  stations := [⟨.standard, mainNormalizer⟩]
  stationNames := []
  given := []

/-- The session after all deaths. -/
def settle (s : Session) : Session := { s with world := s.world.settle (s.names.map (·.2)) }

/-- What stands under a name. -/
def lookup (names : Session → Keyed String α) (name : String) : InSession α := do
  match Keyed.find? name (names (← get)) with
  | some found => return found
  | none => throw (.missingKey (quoteString name))

/-- The object with a name. -/
def object (name : String) : InSession Ref := lookup names name

/-- The number of the tracker with a name. -/
def trackerId (name : String) : InSession Nat := lookup trackerNames name

/-- The number of the normalizer with a name; without a name, of the one that every program has. -/
def normalizerId : Option String → InSession Nat
  | none => return mainNormalizer
  | some name => lookup normalizerNames name

/-- Gives a name to an object. -/
def name (name : String) (r : Ref) : InSession Unit :=
  modify fun s => { s with names := Keyed.put name r s.names }

/-- Changes the world. -/
def setWorld (world : World) : InSession Unit := modify fun s => { s with world }

/-- Changes the heap. -/
def setHeap (heap : Heap) : InSession Unit :=
  modify fun s => { s with world := { s.world with heap } }

/-- The heap. -/
def heap : InSession Heap := return (← get).world.heap

/-- Adds an object. -/
def add (shape : Shape) : InSession Ref := do
  let w := (← get).world
  setWorld (w.add shape)
  return w.heap.size

/-- Carries out what changes the world only if it succeeds. -/
def atOnce (act : World → Except Fault (World × α)) : InSession α := do
  let (w, a) ← act (← get).world
  setWorld w
  return a

/-- Carries out what may change the world before it fails. -/
def inParts (act : World → World × Except Fault α) : InSession α := do
  let (w, result) := act (← get).world
  setWorld w
  result

/-- What is given where a value is expected: plain data, or the name of an object. -/
inductive Input where
  | plain (d : Datum)
  | named (name : String)

/-- The value that an input stands for. -/
def value : Input → InSession Value
  | .plain d => return .datum d
  | .named name => return .object (← object name)

/-- The arguments that some inputs stand for. -/
def arguments (positional : List Input) (keywords : Keyed String Input) : InSession Arguments := do
  let positional ← positional.mapM value
  let keywords ← keywords.mapM fun (key, input) => return (key, ← value input)
  return ⟨positional, keywords⟩

/-- How the classes of callables with fixed arguments are named. -/
inductive ClassName where
  /-- The class under the usual name. -/
  | usual
  /-- The class whose objects report. -/
  | instrumented
  /-- The class whose objects do not. -/
  | plain
  /-- A class with a name of its own. -/
  | named (name : String)

/-- The class that a name stands for. -/
def cls : ClassName → InSession Ref
  | .usual => return (← get).world.partialClass
  | .instrumented => return Catalog.trackedPartialClass
  | .plain => return Catalog.partialClass
  | .named name => object name

end Session

end CallableKinds
