import CallableKinds.Probe
import CallableKinds.Routine
import CallableKinds.Segments

/-!
# Studies

The properties of a single object, from its segments, from its routine and from probes. What a probe
has decided is kept, so that an object is probed once for each question; a probe that fails or
decides nothing may be repeated.
-/

namespace CallableKinds

/-- An object under study. -/
structure Study where
  world : World
  /-- The tracker whose interceptions the probes use. -/
  tracker : Nat
  subject : Ref
  segments : Segments
  /-- Whether the object constructs others, once that is decided. -/
  constructor : Option Bool
  /-- Whether a class statement made the object, once that is decided. -/
  classStatement : Option Bool
  deriving Inhabited

/-- Finding something out about an object, which may fail. -/
abbrev Finding (α : Type) := ExceptT Fault (StateM Study) α

namespace Study

/-- The study of an object of which nothing was found out yet. -/
def begin (world : World) (tracker : Nat) (subject : Ref) (segments : Segments) : Study :=
  ⟨world, tracker, subject, segments, none, none⟩

/-- The heap that the object stands in. -/
def heap (s : Study) : Heap := s.world.heap

/-- The length that the parts of a text are cut down to in messages. -/
def excerptWidth : Int := 100

/-- An excerpt of a part of a text. -/
def excerpt (part : List Char) : String := String.ofList (abbreviate excerptWidth part)

/-- What the object is called in messages. -/
def label (s : Study) : String :=
  match s.heap.attribute? s.subject "__qualname__" with
  | some v => if s.heap.truthyValue v then s.heap.displayValue v else s.heap.print s.subject
  | none => s.heap.print s.subject

/-- A short account of the object for messages. -/
def dump (s : Study) : String :=
  "    name  : " ++ s.label ++ "\n    head  : " ++ excerpt s.segments.head ++ "\n    params: " ++
    excerpt s.segments.params ++ "\n    body  : " ++ excerpt s.segments.body

/-- The properties that probes ask for, in words. -/
def inWords : Probe → String
  | .constructible => "is a constructor"
  | .constructsOnly => "can only be constructed"

/-- Reads a verdict, which has to be decided. -/
def conclude (s : Study) (p : Probe) : Verdict → Except Fault Bool
  | .yes => .ok true
  | .no => .ok false
  | .unknown => .error (.indeterminate (s.heap.print s.subject) (inWords p) s.dump)

/-- Probes the object. -/
def ask (p : Probe) : Finding Bool := do
  let s ← get
  let (verdict, world) := s.world.probe s.tracker p s.subject
  let s := { s with world }
  set s
  s.conclude p (← verdict)

/-- Whether the object constructs others. -/
def isConstructor : Finding Bool := do
  match (← get).constructor with
  | some known => return known
  | none =>
    let found ← ask .constructible
    modify fun s => { s with constructor := some found }
    return found

/-- Whether the text is that of a class statement. -/
def hasClassHead (s : Study) : Bool := Segments.beginsWith classWord s.segments.head

/-- Whether a class statement made the object: the text tells it from other ways of making a class,
and a probe confirms that there is one. -/
def isClass : Finding Bool := do
  let s ← get
  match s.classStatement with
  | some known => return known
  | none =>
    let found ← if s.hasClassHead then ask .constructsOnly else pure false
    modify fun s => { s with classStatement := some found }
    return found

/-- Whether the object constructs others without a class statement. -/
def isClassic : Finding Bool := do
  if ← isConstructor then return !(← isClass) else return false

/-- Whether the text is that of an anonymous function. -/
def isArrow (s : Study) : Bool := Segments.beginsWith lambdaWord s.segments.head

/-- Whether a text begins with the words of an asynchronous definition. -/
def beginsAsync (text : List Char) : Bool :=
  let rest := text.drop 5
  ['a', 's', 'y', 'n', 'c'].isPrefixOf text && rest.head?.any isBlank &&
    Segments.beginsWith ['d', 'e', 'f'] (trimLeft rest)

/-- Whether a bit of some flags is set. -/
def hasFlag (flags flag : Int) : Bool := flags / flag % 2 == 1

/-- The routine of the object. -/
def routine (s : Study) : Except Fault Routine := s.heap.routine s.subject

/-- Whether the calls of the object have to be awaited: by what its routine is, else by the flags of
its code, else by its text. -/
def isAsync (s : Study) : Except Fault Bool := do
  let routine ← s.routine
  if (s.heap.flavor routine.func).isAsync then return true
  match s.heap.codeFlags? routine.func with
  | some flags =>
    return hasFlag flags Flavor.coroutine.flag || hasFlag flags Flavor.asyncGenerator.flag
  | none => return beginsAsync s.segments.head

/-- Whether the calls of the object give one value after another. -/
def isGenerator (s : Study) : Except Fault Bool := do
  let routine ← s.routine
  if (s.heap.flavor routine.func).isGenerator then return true
  match s.heap.codeFlags? routine.func with
  | some flags =>
    return hasFlag flags Flavor.generator.flag || hasFlag flags Flavor.asyncGenerator.flag
  | none => return false

/-- Whether the object is a routine that belongs to an object or a class. -/
def isMemberMethod : Finding Bool := do
  if (← get).isArrow then return false
  if ← isClass then return false
  let s ← get
  return (← s.routine).isMember s.heap

/-- The properties that can be asked for by name. -/
def property? : String → Option (Finding Bool)
  | "is_constructor" => some isConstructor
  | "is_class" => some isClass
  | "is_classic" => some isClassic
  | "is_arrow" => some (return (← get).isArrow)
  | "is_async" => some (do (← get).isAsync)
  | "is_member_method" => some isMemberMethod
  | "is_generator" => some (do (← get).isGenerator)
  | _ => none

end Study

end CallableKinds
