import CallableKinds.Heap.Allocation
import CallableKinds.Heap.Print
import CallableKinds.Heap.Unique
import CallableKinds.World.Binding
import CallableKinds.World.Likeness

/-!
# Calls

What calling an object does. Methods put their receiver in front of the arguments, objects with
fixed arguments put those in front, an instance is called through its class, and a class makes an
instance. In the end a function runs: one that tells its arguments, or one that makes its first
argument look like its second one.
-/

namespace CallableKinds

/-- The arguments of a call. -/
structure Arguments where
  positional : List Value
  keywords : Keyed String Value
  deriving Inhabited

namespace Arguments

/-- The arguments with others fixed in front of them; keywords of the call win. -/
def after (a : Arguments) (positional : List Value) (keywords : Keyed String Value) : Arguments :=
  ⟨positional ++ a.positional, Keyed.putAll keywords a.keywords⟩

end Arguments

namespace Heap

/-- What a call of an object is passed on to by the class of the object, with the arguments. -/
def throughClass? (h : Heap) (r cls : Ref) (a : Arguments) : Option (Ref × Arguments) :=
  match h.classAttribute? cls "__call__" with
  | some (.object slot) =>
    match h.shape slot with
    | .function _ => some (slot, a.after [.object r] [])
    | _ => some (slot, a)
  | _ => none

/-- What a call of an object that has no code of its own is passed on to, with the arguments. -/
def passedOn? (h : Heap) (r : Ref) (a : Arguments) : Option (Ref × Arguments) :=
  match h.shape r with
  | .method func receiver => some (func, a.after [.object receiver] [])
  | .partialOf p =>
    if h.callsFixed p.cls then some (p.func, a.after p.args p.keywords)
    else h.throughClass? r p.cls a
  | .instanceOf c => h.throughClass? r c a
  | _ => none

end Heap

/-- What a call gives. -/
inductive Returned where
  /-- The label of a function and the arguments it was called with. -/
  | told (label : String) (arguments : Arguments)
  | object (r : Ref)
  deriving Inhabited

/-- How a call supplies the parameters of a function that makes one object look like another. -/
structure Imitation where
  wrapper : Value
  wrapped : Value
  assigned : Value
  updated : Value

namespace Imitation

/-- The name of the function in complaints. -/
def callee : String := "update_wrapper"

/-- The parameters of the function; the last two may be left out. -/
def parameters : List String := ["wrapper", "wrapped", "assigned", "updated"]

/-- A complaint about a call of the function. -/
def complaint (text : String) : Fault := .invalidCall (callee ++ "() " ++ text)

/-- The parameters with their arguments after some keywords have been matched with them. -/
def matchKeywords (given : Keyed String Value) : Keyed String Value →
    Except Fault (Keyed String Value)
  | [] => .ok given
  | (key, v) :: rest =>
    if !parameters.contains key then
      .error (complaint ("got an unexpected keyword argument '" ++ key ++ "'"))
    else if Keyed.has key given then .error (.repeatedArgument callee key)
    else matchKeywords (Keyed.put key v given) rest

/-- The complaint about parameters without arguments. -/
def missing : List String → Fault
  | [name] => complaint ("missing 1 required positional argument: '" ++ name ++ "'")
  | names => complaint ("missing " ++ toString names.length ++ " required positional arguments: " ++
      " and ".intercalate (names.map fun name => "'" ++ name ++ "'"))

/-- Matches the arguments of a call with the parameters. -/
def ofArguments (a : Arguments) : Except Fault Imitation := do
  let given ← matchKeywords (parameters.zip a.positional) a.keywords
  if parameters.length < a.positional.length then
    throw (complaint ("takes from 2 to 4 positional arguments but " ++
      toString a.positional.length ++ " were given"))
  match Keyed.find? "wrapper" given, Keyed.find? "wrapped" given with
  | some wrapper, some wrapped =>
    return ⟨wrapper, wrapped, (Keyed.find? "assigned" given).getD (.names Heap.usualNames),
      (Keyed.find? "updated" given).getD (.names [Heap.dictName])⟩
  | wrapper, wrapped =>
    throw (missing ((if wrapper.isSome then [] else ["wrapper"]) ++
      (if wrapped.isSome then [] else ["wrapped"])))

/-- The names that a value lists. -/
def namesIn (h : Heap) (v : Value) : Except Fault (List String) :=
  match h.items? v with
  | some items => .ok (items.map Datum.display)
  | none => .error (.notIterable (h.valueType v))

end Imitation

namespace World

/-- The object that a value is; plain data become an object if there is none for them. -/
def box (w : World) : Value → World × Ref
  | .object r => (w, r)
  | .datum d =>
    match w.heap.existing? d with
    | some r => (w, r)
    | none => (w.add (.datum d), w.heap.size)
  | _ => (w.add (.datum .none), w.heap.size)

/-- Runs a function that makes one object look like another. -/
def runImitation (w : World) (tracked : Bool) (a : Arguments) : World × Except Fault Returned :=
  let prepared : Except Fault (Imitation × List String × List String) := do
    let i ← Imitation.ofArguments a
    return (i, ← Imitation.namesIn w.heap i.assigned, ← Imitation.namesIn w.heap i.updated)
  match prepared with
  | .error f => (w, .error f)
  | .ok (i, assigned, updated) =>
    let (w, wrapper) := w.box i.wrapper
    let (w, wrapped) := w.box i.wrapped
    let (w, result) := w.imitate tracked wrapper wrapped assigned updated
    (w, result.map .object)

/-- Makes an object of a class, which takes no arguments. -/
def construct (w : World) (cls : Ref) (c : ClassInfo) (a : Arguments) :
    World × Except Fault Returned :=
  if !(a.positional.isEmpty && a.keywords.isEmpty) then
    (w, .error (.invalidCall (c.name ++ "() takes no arguments")))
  else
    match w.heap.abstractRefusal? cls c with
    | some complaint => (w, .error (.invalidCall complaint))
    | none => (w.add (.instanceOf cls), .ok (.object w.heap.size))

/-- Calls an object, through so many objects one behind the other. -/
def callFrom (w : World) : Nat → Ref → Arguments → World × Except Fault Returned
  | 0, _, _ => (w, .error .endlessCall)
  | fuel + 1, r, a =>
    match w.heap.shape r with
    | .function f =>
      match f.body with
      | .echo label => (w, .ok (.told label a))
      | .updateWrapper tracked => w.runImitation tracked a
    | .cls c => w.construct r c a
    | _ =>
      match w.heap.passedOn? r a with
      | some (next, a) => w.callFrom fuel next a
      | none => (w, .error (.invalidCall ("'" ++ w.heap.typeName r ++ "' object is not callable")))

/-- Calls an object. -/
def call (w : World) (r : Ref) (a : Arguments) : World × Except Fault Returned :=
  w.callFrom (w.heap.size + 1) r a

/-- The decorator that makes functions look like a given one: the function under the usual name for
that, with all but its first argument fixed. -/
def decorator (w : World) (wrapped : Ref) : Except Fault (World × Ref) :=
  w.bind w.partialClass (some w.updateWrapper) [] [("wrapped", .object wrapped),
    ("assigned", .names Heap.usualNames), ("updated", .names [Heap.dictName])]

/-- The parameters of an interception that no keyword can be named like. -/
def interceptionParameters : List String := ["self", "func"]

/-- A function that a script puts in the place of an interception. -/
def standIn : Shape := .function (.ofSignature "attempt" "attempt" .plain [] (.echo "attempt"))

/-- Fixes arguments without reporting it, or does what the script of the tracker has next. -/
def bindUnwrapped (w : World) (id : Nat) (func : Ref) (a : Arguments) :
    World × Except Fault Ref :=
  match interceptionParameters.find? fun name => Keyed.has name a.keywords with
  | some name => (w, .error (.repeatedArgument "Tracker.bind_unwrapped" name))
  | none =>
    let next := (w.tracker id).intercept.1
    let w := w.withTracker id fun t => t.intercept.2
    match next with
    | .genuine =>
      match w.bind Catalog.partialClass (some func) a.positional a.keywords with
      | .ok (w, r) => (w, .ok r)
      | .error f => (w, .error f)
    | .succeed | .fail _ => (w.add standIn, .ok w.heap.size)

end World

end CallableKinds
