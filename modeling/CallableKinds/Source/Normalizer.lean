import CallableKinds.Source.Decorators
import CallableKinds.Source.Lambda
import CallableKinds.Source.Stub
import CallableKinds.Text.Spacing
import CallableKinds.WeakTable

/-!
# Normalized source texts

The source text of a callable is that of its routine: moved to the left margin, without decorators,
and of an anonymous function only its own expression. A routine whose source is not known has a stub
for a text. The text of an object is found once; an object that cannot be referred to weakly is
looked at again every time.
-/

namespace CallableKinds

/-- The source text of a callable. -/
structure SourceText where
  /-- The definition without decorators. -/
  raw : List Char
  /-- The definition with runs of blanks collapsed. -/
  text : List Char
  decorators : List (List Char)
  /-- The text is a stub. -/
  native : Bool
  deriving Repr, DecidableEq, Inhabited

namespace SourceText

/-- A text as it is. -/
def ofRaw (raw : List Char) (native : Bool) : SourceText := ⟨raw, squeeze raw, [], native⟩

/-- The text of a routine from the source that is known of it; `isolate` takes from the definition
what belongs to the routine. -/
def ofSource (isolate : List Char → Except Fault (List Char)) (source : List Char) :
    Except Fault SourceText := do
  let d ← Decorated.split (dedent source)
  let raw ← isolate d.definition
  return { ofRaw (trim raw) false with decorators := d.decorators }

end SourceText

/-- Where sources are looked up. -/
inductive Archive where
  /-- A list of objects with their sources, or the errors of looking them up. -/
  | listed (sources : Keyed Ref (Except Report (List Char)))
  /-- Files, which hold nothing about any object. The object that the routine was made to look like
  is looked up. -/
  | files

namespace Archive

/-- The error about a routine without a known source. -/
def noSource : Fault := Report.raise "OSError" "could not get source code"

/-- The source of a routine. -/
def lookup (h : Heap) (subject : Ref) : Archive → Except Fault (List Char)
  | listed sources =>
    match Keyed.find? subject sources with
    | some (.ok source) => .ok source
    | some (.error e) => .error (.raised e)
    | none => .error noSource
  | files =>
    match h.unwrap (fun _ => false) subject with
    | some _ => .error noSource
    | none => .error (.wrapperLoop (h.print subject))

/-- The objects whose lookup a list answers. -/
def asked (subject : Ref) : Archive → List Ref
  | listed _ => [subject]
  | files => []

/-- Whether an error of looking up a source only means that there is none. -/
def isAbsence (f : Fault) : Bool := f.kind.isA "OSError" || f.kind.isA "TypeError"

end Archive

/-- What a normalizer takes texts from. -/
inductive Origin where
  | archive (a : Archive)
  /-- Texts of objects as they are. -/
  | given (texts : Keyed Ref (List Char))

/-- An origin of texts, and the texts found so far. -/
structure Normalizer where
  origin : Origin
  cache : WeakTable Ref SourceText

namespace Heap

/-- The word that anonymous functions have for a name. -/
def lambdaName : String := "<lambda>"

/-- The names of the parameters that a caller of an object sees. -/
def parameterNames? (h : Heap) (r : Ref) : Except Fault (Option (List (List Char))) :=
  return (← h.signature? r).map Signature.names

/-- Takes from a definition what belongs to a routine: of an anonymous function only the expression
with the names of its parameters. -/
def isolate (h : Heap) (r : Ref) (definition : List Char) : Except Fault (List Char) :=
  if h.name? r = some lambdaName then do isolateLambda definition (← h.parameterNames? r)
  else .ok definition

end Heap

namespace Normalizer

/-- A normalizer that has found nothing yet. -/
def ofOrigin (origin : Origin) : Normalizer := ⟨origin, .empty⟩

/-- The normalizer of every program. -/
def standard : Normalizer := ofOrigin (.archive .files)

/-- The text of a routine. -/
def ofRoutine (h : Heap) (a : Archive) (subject : Ref) : Except Fault SourceText :=
  match a.lookup h subject with
  | .ok source => SourceText.ofSource (h.isolate subject) source
  | .error f =>
    if Archive.isAbsence f then return .ofRaw (← h.stub subject).toList true else .error f

/-- The text of an object, found anew, and the routines whose source was asked for. -/
def find (n : Normalizer) (h : Heap) (r : Ref) : Except Fault SourceText × List Ref :=
  match n.origin with
  | .given texts =>
    match Keyed.find? r texts with
    | some text => (.ok (.ofRaw text true), [])
    | none => (.error Archive.noSource, [])
  | .archive a =>
    match h.routine r with
    | .ok routine => (ofRoutine h a routine.func, a.asked routine.func)
    | .error f => (.error f, [])

/-- Whether texts that were found are kept. -/
def keeps (n : Normalizer) : Bool :=
  match n.origin with
  | .archive _ => true
  | .given _ => false

/-- The normalizer after a text was found. -/
def remember (n : Normalizer) (h : Heap) (r : Ref) (t : SourceText) : Normalizer :=
  if n.keeps && h.weaklyReferable r then { n with cache := n.cache.set r r t } else n

/-- Identifies the text that is kept of an object among all texts of the normalizer. -/
def identity? (n : Normalizer) (r : Ref) : Option Nat := (n.cache.entryOf r r).map (·.ticket)

/-- What a request for a text gives. -/
structure Response where
  result : Except Fault SourceText
  normalizer : Normalizer
  /-- The routines whose source was asked for. -/
  asked : List Ref

/-- Asks for the text of an object. -/
def request (n : Normalizer) (h : Heap) (r : Ref) : Response :=
  match n.cache.get? r r with
  | some t => ⟨.ok t, n, []⟩
  | none =>
    match n.find h r with
    | (.ok t, asked) => ⟨.ok t, n.remember h r t, asked⟩
    | (.error f, asked) => ⟨.error f, n, asked⟩

theorem request_of_kept {n : Normalizer} {h : Heap} {r : Ref} {t : SourceText}
    (hit : n.cache.get? r r = some t) : n.request h r = ⟨.ok t, n, []⟩ := by
  simp [request, hit]

end Normalizer

end CallableKinds
