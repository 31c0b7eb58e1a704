import CallableKinds.Heap.Print
import CallableKinds.Rule

/-!
# Feature records

What a classification says of a callable: eleven facts, the callable itself and the source that it
goes back to. Rules and readers see the record as features by name, always in the same order.
-/

namespace CallableKinds

/-- The features of a callable. -/
structure FeatureRecord where
  /-- It constructs objects. -/
  isConstructor : Bool
  /-- A class statement made it. -/
  isClass : Bool
  /-- It constructs objects, but no class statement made it. -/
  isClassic : Bool
  /-- It was made to look like another callable at last. -/
  isProxy : Bool
  /-- Fixing arguments of another callable made it at last. -/
  isBound : Bool
  /-- It was made to look like another callable earlier on. -/
  wasProxy : Bool
  /-- Fixing arguments made it earlier on. -/
  wasBound : Bool
  /-- It is an anonymous function. -/
  isArrow : Bool
  /-- Its calls have to be awaited. -/
  isAsync : Bool
  /-- It belongs to an object or a class. -/
  isMemberMethod : Bool
  /-- Its calls give one value after another. -/
  isGenerator : Bool
  target : Ref
  source : Ref
  deriving Repr, DecidableEq, Inhabited

namespace FeatureRecord

/-- The facts by name. -/
def facts (f : FeatureRecord) : Keyed String Bool := [
  ("is_constructor", f.isConstructor), ("is_class", f.isClass), ("is_classic", f.isClassic),
  ("is_proxy", f.isProxy), ("is_bound", f.isBound), ("was_proxy", f.wasProxy),
  ("was_bound", f.wasBound), ("is_arrow", f.isArrow), ("is_async", f.isAsync),
  ("is_member_method", f.isMemberMethod), ("is_generator", f.isGenerator)]

/-- The features by name, as rules read them. -/
def features (h : Heap) (f : FeatureRecord) : Features :=
  (f.facts.map fun (name, b) => (name, .plain (.bool b))) ++
    [("target", .object (h.print f.target)), ("source", .object (h.print f.source))]

/-- The rules that a record breaks. -/
def violations (h : Heap) (rules : List Rule) (f : FeatureRecord) : Except Fault (List String) :=
  Rule.violations (f.features h) rules

end FeatureRecord

end CallableKinds
