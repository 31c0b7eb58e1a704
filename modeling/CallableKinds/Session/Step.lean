import CallableKinds.Session.Definition
import CallableKinds.Session.Description

/-!
# Steps

The questions to a session and the changes of it, with their answers. A step that fails changes
nothing except what it did before it failed. After every step the objects that nothing holds any
more are dead.
-/

namespace CallableKinds

/-- A question to a session or a change of it. What a step makes gets the name `as`. -/
inductive Step where
  | define (as : String) (d : Definition)
  | alias (as obj : String)
  | drop (obj : String)
  | setAttribute (obj name : String) (value : Session.Input)
  | describe (obj : String)
  | call (as : Option String) (obj : String) (args : List Session.Input)
      (keywords : Keyed String Session.Input)
  | makeTracker (as : String) (script : List Interception)
  | install (tracker : String)
  | uninstall (tracker : String)
  | status
  | demote (states : List Int)
  | recordWrap (tracker target result : String) (kind : Int)
  | provenance (tracker obj : String)
  | sizes (tracker : String)
  | bind (as : String) (cls : Session.ClassName) (func : Option String) (args : List Session.Input)
      (keywords : Keyed String Session.Input)
  | derive (as module : String)
  | bindUnwrapped (as tracker func : String) (args : List Session.Input)
      (keywords : Keyed String Session.Input)
  | imitate (as wrapper wrapped : String) (assigned : Option (List String))
  | imitateUnwrapped (as wrapper wrapped : String)
  | decorator (as wrapped : String)
  | copy (as : String) (deep : Bool) (obj : String)
  | isInstance (obj : String) (cls : Session.ClassName)
  | isSubclass (sub cls : Session.ClassName)
  | routine (obj : String)
  | printRoutine (obj : String)
  | sameRoutine (obj other : String)
  | probe (tracker : String) (question : Probe) (obj : String)
  | stub (obj : String)
  | isolate (text : List Char) (obj : String)
  | makeArchive (as : String) (sources : List (String × Except Report (List Char)))
  | makeTexts (as : String) (texts : List (String × List Char))
  | normalize (normalizer : Option String) (obj : String)
  | makeClassifier (as tracker : String) (normalizer : Option String) (rules : List Rule)
  | segments (classifier obj : String)
  /-- The record of an object, by the classifier that every program has if none is named. -/
  | classify (classifier : Option String) (obj : String)
  | properties (classifier obj : String) (names : List String)
  | dump (classifier obj : String)

/-- The answer to a step. -/
inductive Answer where
  | text (s : String)
  | truth (b : Bool)
  | datum (d : Datum)
  | numbers (ns : List Int)
  | paths (ps : List String)
  | description (d : Session.Description)
  | status (s : Session.Status) (returned : Option String)
  | provenance (p : Session.Provenance)
  | sizes (sources states : Nat)
  | routine (r : Session.RoutineDescription)
  /-- A normalized text, whether it is the very one given last time, and the lookups for it. -/
  | source (t : SourceText) (same : Bool) (calls : List Datum)
  | segments (s : Segments) (calls : List Datum)
  /-- A feature record, and the lookups for it if they are told. -/
  | record (facts : Keyed String Bool) (target source : Datum) (calls : Option (List Datum))
  | properties (results : List (Except Fault Bool))
  | failed (f : Fault)

namespace Step

open Session

/-- What is answered when something got a name. -/
def defined : Answer := .text "defined"

/-- Names an object and describes it. -/
def describeAs (as : String) (r : Ref) : InSession Answer := do
  name as r
  return .description ((← get).describe r)

/-- The sizes of the tables of a tracker after all deaths. -/
def sizesOf (tracker : String) : InSession Answer := do
  let id ← trackerId tracker
  let (sources, states) := ((← get).settle.world.tracker id).sizes
  return .sizes sources states

/-- What a tracker knows of an object after all deaths. -/
def provenanceOf (tracker : String) (r : Ref) : InSession Answer := do
  let id ← trackerId tracker
  return .provenance ((← get).settle.provenance id r)

/-- Carries out a part of a classification, with the lookups that it led to. -/
def inquire (number : Nat) (part : Inquire α) : InSession (α × List Datum) := do
  let s ← get
  match s.stations[number]? with
  | none => throw (.missingKey "")
  | some station =>
    let normalizer := (s.normalizers[station.normalizer]?).getD .standard
    let (result, q) := part.run.run ⟨s.world, normalizer, station.classifier, []⟩
    set { s with
      world := q.world
      normalizers := s.normalizers.set station.normalizer q.normalizer
      stations := s.stations.set number { station with classifier := q.classifier } }
    return (← result, q.asked.map s.identify)

/-- The number of the classifier with a name; without a name, of the one that every program has. -/
def stationNumber : Option String → InSession Nat
  | none => return mainStation
  | some name => lookup stationNames name

/-- Asks a normalizer for a text. -/
def normalizeWith (normalizer : Option String) (obj : String) : InSession Answer := do
  let id ← normalizerId normalizer
  let r ← object obj
  let s ← get
  let n := (s.normalizers[id]?).getD .standard
  let response := n.request s.world.heap r
  set { s with normalizers := s.normalizers.set id response.normalizer }
  let t ← response.result
  let identity := response.normalizer.identity? r
  let same := identity.isSome && Keyed.find? (id, obj) s.given == some identity
  modify fun s => { s with given := Keyed.put (id, obj) identity s.given }
  return .source t same (response.asked.map s.identify)

/-- Sets up a normalizer. -/
def addNormalizer (as : String) (origin : Origin) : InSession Answer := do
  modify fun s => { s with
    normalizerNames := Keyed.put as s.normalizers.length s.normalizerNames
    normalizers := s.normalizers ++ [.ofOrigin origin] }
  return defined

/-- Sets up a classifier. -/
def addClassifier (as tracker : String) (normalizer : Option String) (rules : List Rule) :
    InSession Answer := do
  let tracker ← trackerId tracker
  let normalizer ← normalizerId normalizer
  modify fun s => { s with
    stationNames := Keyed.put as s.stations.length s.stationNames
    stations := s.stations ++ [⟨.make tracker rules, normalizer⟩] }
  return defined

/-- Reads properties of one study one after another, each of which may fail. -/
def readProperties : Study → List String → World × List (Except Fault Bool)
  | study, [] => (study.world, [])
  | study, property :: rest =>
    match Study.property? property with
    | none =>
      let (w, results) := readProperties study rest
      (w, .error (.noAttributeOf "Analysis" property) :: results)
    | some find =>
      let (result, study) := find.run.run study
      let (w, results) := readProperties study rest
      (w, result :: results)

/-- Reads properties of an object. -/
def propertiesOf (r : Ref) (properties : List String) : Inquire (List (Except Fault Bool)) := do
  let (w, results) := readProperties (← Inquiry.analyse r) properties
  modify fun q => { q with world := w }
  return results

/-- Calls an object and tells what comes back, or describes it under a name. -/
def callObject (as : Option String) (r : Ref) (a : Arguments) : InSession Answer := do
  let returned ← inParts fun w => w.call r a
  match as with
  | none => return .datum ((← get).showReturned returned)
  | some as =>
    match returned with
    | .object r => describeAs as r
    | .told .. => describeAs as (← add (.datum ((← get).showReturned returned)))

/-- Tells the status, after a tracker may have been returned. -/
def statusNow (returned : Option String) : InSession Answer :=
  return .status (← get).status returned

/-- Carries out a step, before any object dies of it. -/
def perform : Step → InSession Answer
  | define as d => do
    name as (← d.make as)
    return defined
  | .alias as obj => do
    name as (← object obj)
    return defined
  | drop obj => do
    let _ ← object obj
    modify fun s => { s with names := Keyed.erase obj s.names }
    return .text "dropped"
  | setAttribute obj attr input => do
    let r ← object obj
    setHeap (← (← heap).setAttribute r attr (← value input))
    return .text "set"
  | describe obj => return .description ((← get).describe (← object obj))
  | call as obj args keywords => do callObject as (← object obj) (← arguments args keywords)
  | makeTracker as script => do
    modify fun s => { s with
      trackerNames := Keyed.put as s.world.trackers.length s.trackerNames
      world := s.world.addTracker script }
    statusNow none
  | install tracker => do
    let id ← trackerId tracker
    setWorld ((← get).world.install id)
    statusNow ((← get).namesOfTracker id).head?
  | uninstall tracker => do
    let id ← trackerId tracker
    setWorld ((← get).world.uninstall id)
    statusNow none
  | status => statusNow none
  | demote states => return .numbers (states.map WrapState.demoteBits)
  | recordWrap tracker target result kind => do
    let id ← trackerId tracker
    let target ← object target
    let r ← object result
    setWorld ((← get).world.record id target r (.ofBits kind))
    provenanceOf tracker r
  | provenance tracker obj => do provenanceOf tracker (← object obj)
  | sizes tracker => sizesOf tracker
  | bind as c func args keywords => do
    let c ← cls c
    let func ← func.mapM object
    let a ← arguments args keywords
    describeAs as (← atOnce fun w => w.bind c func a.positional a.keywords)
  | derive as module => do
    let (w, r) := (← get).world.derive module as
    setWorld w
    name as r
    return .paths ((w.heap.lineage r).map w.heap.classPath)
  | bindUnwrapped as tracker func args keywords => do
    let id ← trackerId tracker
    let func ← object func
    let a ← arguments args keywords
    describeAs as (← inParts fun w => w.bindUnwrapped id func a)
  | imitate as wrapper wrapped assigned => do
    let wrapper ← object wrapper
    let wrapped ← object wrapped
    describeAs as (← inParts fun w => w.imitate w.instrumented wrapper wrapped
      (assigned.getD Heap.usualNames) [Heap.dictName])
  | imitateUnwrapped as wrapper wrapped => do
    let wrapper ← object wrapper
    let wrapped ← object wrapped
    describeAs as (← inParts fun w => w.imitate false wrapper wrapped Heap.usualNames
      [Heap.dictName])
  | decorator as wrapped => do
    let wrapped ← object wrapped
    describeAs as (← atOnce fun w => w.decorator wrapped)
  | copy as deep obj => do
    let r ← object obj
    describeAs as (← atOnce fun w => w.copy deep r)
  | isInstance obj c => return .truth ((← heap).isInstance (← object obj) (← cls c))
  | isSubclass sub c => do
    let sub ← cls sub
    let h ← heap
    if h.isClass sub then return .truth (h.isSubclass sub (← cls c))
    else throw (.invalidCall "issubclass() arg 1 must be a class")
  | routine obj => do
    let r ← object obj
    let s ← get
    return .routine (s.describeRoutine (← s.world.heap.routine r))
  | printRoutine obj => do
    let r ← object obj
    let h ← heap
    return .text ((← h.routine r).print h)
  | sameRoutine obj other => do
    let r ← object obj
    let other ← object other
    let h ← heap
    let a ← h.routine r
    let b ← h.routine other
    return .truth (a == b)
  | probe tracker question obj => do
    let id ← trackerId tracker
    let r ← object obj
    let (verdict, w) := (← get).world.probe id question r
    setWorld w
    return .text (← verdict).name
  | stub obj => return .text (← (← heap).stub (← object obj))
  | isolate text obj => do
    let names ← (← heap).parameterNames? (← object obj)
    return .text (String.ofList (← isolateLambda text names))
  | makeArchive as sources => do
    let sources ← sources.mapM fun (obj, source) => return (← object obj, source)
    addNormalizer as (.archive (.listed sources))
  | makeTexts as texts => do
    let texts ← texts.mapM fun (obj, text) => return (← object obj, text)
    addNormalizer as (.given texts)
  | normalize normalizer obj => normalizeWith normalizer obj
  | makeClassifier as tracker normalizer rules => addClassifier as tracker normalizer rules
  | segments classifier obj => do
    let r ← object obj
    let (s, calls) ← inquire (← stationNumber (some classifier)) (Inquiry.segments r)
    return .segments s calls
  | classify classifier obj => do
    let r ← object obj
    let (f, calls) ← inquire (← stationNumber classifier) (Inquiry.classify r)
    let s ← get
    return .record f.facts (s.identify f.target) (s.identify f.source)
      (if classifier.isSome then some calls else none)
  | properties classifier obj names => do
    let r ← object obj
    let (results, _) ← inquire (← stationNumber (some classifier)) (propertiesOf r names)
    return .properties results
  | dump classifier obj => do
    let r ← object obj
    let (study, _) ← inquire (← stationNumber (some classifier)) (Inquiry.analyse r)
    return .text study.dump

end Step

namespace Session

/-- Carries out a step. -/
def step (s : Session) (step : Step) : Session × Answer :=
  let (result, s) := step.perform.run.run s
  (s.settle, match result with
    | .ok answer => answer
    | .error f => .failed f)

/-- The answers to a list of steps. -/
def run (s : Session) : List Step → List Answer
  | [] => []
  | step :: rest =>
    let (t, answer) := s.step step
    answer :: t.run rest

/-- The answers to a list of steps from the start. -/
def answers (steps : List Step) : List Answer := initial.run steps

end Session

end CallableKinds
