import CallableKinds.Session

/-!
# Descriptions

How objects are identified and described in answers. An object is identified by its first name, by
its qualified name, or by its written form, and nothing by nothing.
-/

namespace CallableKinds

namespace Session

/-- The first name of an object. -/
def firstName? (s : Session) (r : Ref) : Option String :=
  s.names.findSome? fun (name, object) => if object = r then some name else none

/-- Identifies an object. -/
def identify (s : Session) (r : Ref) : Datum :=
  let h := s.world.heap
  match h.shape r with
  | .datum .none => .none
  | shape =>
    match s.firstName? r with
    | some name => .str ("@" ++ name)
    | none =>
      match shape, h.qualname? r with
      | .partialOf _, _ => .str "=partial"
      | _, some qualname => .str ("%" ++ qualname)
      | _, none => .str ("=" ++ h.print r)

/-- Identifies a value. -/
def identifyValue (s : Session) : Value → Datum
  | .object r => s.identify r
  | .datum .none => .none
  | .datum d =>
    match s.world.heap.existing? d with
    | some r => s.identify r
    | none => .str ("=" ++ d.print)
  | v => .str ("=" ++ s.world.heap.printValue v)

/-- Shows a value: data as they are, objects by what identifies them. -/
def showValue (s : Session) : Value → Datum
  | .datum d => d
  | .object r =>
    match s.world.heap.shape r with
    | .datum d => d
    | _ => s.identify r
  | v => s.identifyValue v

/-- The keywords that are not shown. -/
def unshown : List String := ["assigned", "updated"]

/-- Shows keyword arguments in the order of their names. -/
def showKeywords (s : Session) (keywords : Keyed String Value) : List (String × Datum) :=
  let shown := (keywords.filter fun (key, _) => !unshown.contains key).map
    fun (key, v) => (key, s.showValue v)
  shown.mergeSort fun a b => a.1 ≤ b.1

/-- Shows what a call gives. -/
def showReturned (s : Session) : Returned → Datum
  | .object r => s.showValue (.object r)
  | .told label a => .list [.str "called", .str label, .list (a.positional.map s.showValue),
      .list ((s.showKeywords a.keywords).map fun (key, d) => .list [.str key, d])]

/-- What a callable with fixed arguments is made of. -/
structure FixedDescription where
  instrumented : Bool
  func : Datum
  args : List Datum
  keywords : List (String × Datum)

/-- What is told about an object. -/
structure Description where
  typePath : String
  name : Datum
  qualname : Datum
  wrapped : Datum
  fixed : Option FixedDescription

/-- Identifies what an object was made to look like. What its class has for that may be bound to the
object, and is then told by its qualified name. -/
def identifyWrapped (s : Session) (r : Ref) : Datum :=
  let h := s.world.heap
  match h.boundWrapped? r with
  | some slot => ((h.qualname? slot).map fun qualname => .str ("%" ++ qualname)).getD .none
  | none => ((h.wrapped? r).map s.identifyValue).getD .none

/-- Describes an object. -/
def describe (s : Session) (r : Ref) : Description :=
  let h := s.world.heap
  { typePath := h.typePath r
    name := ((h.attribute? r "__name__").map s.showValue).getD .none
    qualname := ((h.attribute? r "__qualname__").map s.showValue).getD .none
    wrapped := s.identifyWrapped r
    fixed := match h.shape r with
      | .partialOf p => some ⟨p.cls == Catalog.trackedPartialClass, s.identify p.func,
          p.args.map s.showValue, s.showKeywords p.keywords⟩
      | _ => none }

/-- What is told about the routine of an object. -/
structure RoutineDescription where
  func : Datum
  receiver : Datum
  constructs : Bool
  ownerName : Option String
  isMember : Bool

/-- Describes a routine. -/
def describeRoutine (s : Session) (r : Routine) : RoutineDescription where
  func := s.identify r.func
  receiver := (r.receiver.map s.identify).getD .none
  constructs := r.constructs
  ownerName := r.ownerName s.world.heap
  isMember := r.isMember s.world.heap

/-- Which trackers are installed, by name, and whether the usual primitives are instrumented. -/
structure Status where
  installed : List String
  active : Option String
  instrumented : Bool

/-- The names of a tracker. -/
def namesOfTracker (s : Session) (id : Nat) : List String :=
  (s.trackerNames.filter fun n => n.2 == id).map (·.1)

/-- The status of a session. -/
def status (s : Session) : Status :=
  let installed := (s.world.active.map s.namesOfTracker).getD []
  ⟨installed, installed.head?, s.world.instrumented⟩

/-- What a tracker knows of an object. -/
structure Provenance where
  state : WrapState
  source : Datum
  sizes : Nat × Nat

/-- What a tracker knows of an object. -/
def provenance (s : Session) (id : Nat) (r : Ref) : Provenance :=
  let t := s.world.tracker id
  ⟨t.state r, s.identify (t.source r), t.sizes⟩

end Session

end CallableKinds
