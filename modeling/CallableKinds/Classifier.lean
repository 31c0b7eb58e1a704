import CallableKinds.Classifier.Record
import CallableKinds.Classifier.Study
import CallableKinds.Source.Normalizer

/-!
# Classifiers

A classifier gives the feature record of a callable. The tracker says what the callable goes back to
and how it was wrapped; all other features are those of the source it goes back to. A record that
breaks the rules is not handed out.
-/

namespace CallableKinds

/-- A tracker, consistency rules, and the segments found so far. -/
structure Classifier where
  tracker : Nat
  rules : List Rule
  cache : WeakTable Ref Segments
  deriving Inhabited

namespace Classifier

/-- A classifier that has found nothing yet. -/
def make (tracker : Nat) (rules : List Rule) : Classifier := ⟨tracker, rules, .empty⟩

/-- The classifier of every program. -/
def standard : Classifier := make World.mainTracker Rule.standard

/-- The classifier after the segments of an object were found. -/
def remember (c : Classifier) (h : Heap) (r : Ref) (s : Segments) : Classifier :=
  if h.weaklyReferable r then { c with cache := c.cache.set r r s } else c

end Classifier

/-- What a classification reads and changes. -/
structure Inquiry where
  world : World
  normalizer : Normalizer
  classifier : Classifier
  /-- The routines whose source was asked for so far. -/
  asked : List Ref

/-- A part of a classification, which may fail. -/
abbrev Inquire (α : Type) := ExceptT Fault (StateM Inquiry) α

namespace Inquiry

/-- The tracker of the classifier. -/
def tracker (q : Inquiry) : Tracker := q.world.tracker q.classifier.tracker

/-- The normalized source text of an object. -/
def sourceText (r : Ref) : Inquire SourceText := do
  let q ← get
  let response := q.normalizer.request q.world.heap r
  set { q with normalizer := response.normalizer, asked := q.asked ++ response.asked }
  response.result

/-- The segments of the source text of an object, found once for an object that can be referred to
weakly. -/
def segments (r : Ref) : Inquire Segments := do
  match (← get).classifier.cache.get? r r with
  | some s => return s
  | none =>
    let s ← Segments.scan (← sourceText r).raw
    modify fun q => { q with classifier := q.classifier.remember q.world.heap r s }
    return s

/-- Begins the study of an object. -/
def analyse (r : Ref) : Inquire Study := do
  let _ ← sourceText r
  let s ← segments r
  let q ← get
  return .begin q.world q.classifier.tracker r s

/-- The record of a callable with a study of its source. -/
def describe (t : Tracker) (target source : Ref) : Finding FeatureRecord := do
  let isConstructor ← Study.isConstructor
  let isClass ← Study.isClass
  let isClassic ← Study.isClassic
  let state := t.state target
  let isArrow := (← get).isArrow
  let isAsync ← (← get).isAsync
  let isMemberMethod ← Study.isMemberMethod
  let isGenerator ← (← get).isGenerator
  return { isConstructor, isClass, isClassic, isProxy := state.isProxy, isBound := state.isBound,
           wasProxy := state.wasProxy, wasBound := state.wasBound, isArrow, isAsync,
           isMemberMethod, isGenerator, target, source }

/-- Hands out a record that breaks no rules. -/
def checked (rules : List Rule) (record : FeatureRecord) : Finding FeatureRecord := do
  let s ← get
  let violations ← record.violations s.heap rules
  if violations.isEmpty then return record
  else throw (.inconsistent violations s.dump)

/-- Carries out a part of a study. What it changes of the world remains. -/
def studying (study : Study) (find : Finding α) : Inquire α := do
  let (result, study) := find.run.run study
  modify fun q => { q with world := study.world }
  result

/-- The feature record of a callable. -/
def classify (candidate : Ref) : Inquire FeatureRecord := do
  let q ← get
  if !q.world.heap.callable candidate then
    throw (.callableExpected (q.world.heap.typeName candidate))
  let source := q.tracker.source candidate
  let study ← analyse source
  studying study (do checked q.classifier.rules (← describe q.tracker candidate source))

end Inquiry

end CallableKinds
