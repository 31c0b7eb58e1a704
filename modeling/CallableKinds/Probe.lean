import CallableKinds.Heap.Allocation
import CallableKinds.Text.Mention
import CallableKinds.World

/-!
# Probes

Whether an object constructs others is found out by an intercepted attempt, which runs no code of
the object, and read off the complaint if the attempt is refused. A complaint that is not recognized
decides nothing, and an error of any other kind is passed on.
-/

namespace CallableKinds

/-- An attempt that only a class can serve. -/
inductive Attempt where
  /-- Allocating a blank object of the class. -/
  | allocate
  /-- Binding the slot that serves constructions, without calling it. -/
  | bindSlot
  deriving Repr, DecidableEq, Inhabited

namespace Attempt

/-- The complaint about an object that is no class. -/
def complaint (typeName : String) : Attempt → String
  | allocate => "object.__new__(X): X is not a type object (" ++ typeName ++ ")"
  | bindSlot =>
    "descriptor '__call__' for 'type' objects doesn't apply to a '" ++ typeName ++ "' object"

/-- The complaint about an attempt that is carried out, if it is refused. A class serves every
attempt, unless it guards the allocation of its objects. -/
def refusal? (h : Heap) (subject : Ref) (a : Attempt) : Option String :=
  if h.isClass subject then
    match a with
    | allocate => h.allocationComplaint? subject
    | bindSlot => none
  else some (a.complaint (h.typeName subject))

/-- What comes of an attempt that is carried out. -/
def outcome (h : Heap) (subject : Ref) (a : Attempt) : Except Report Unit :=
  match a.refusal? h subject with
  | some message => .error (.ofMessage (.standard "TypeError") message)
  | none => .ok ()

end Attempt

/-- What a probe finds. -/
inductive Verdict where
  | yes
  | no
  | unknown
  deriving Repr, DecidableEq, Inhabited

namespace Verdict

/-- The word for a verdict. -/
def name : Verdict → String
  | yes => "yes"
  | no => "no"
  | unknown => "unknown"

end Verdict

/-- A question to an object. -/
inductive Probe where
  /-- Whether it constructs objects. -/
  | constructible
  /-- Whether constructing objects is all that it does. -/
  | constructsOnly
  deriving Repr, DecidableEq, Inhabited

namespace Probe

/-- The complaints about attempts that no class is there to serve. -/
def notClass : String := "is not a type object"
def notApplicable : String := "doesn't apply to a"

/-- The complaints about classes that guard the allocation of their objects. -/
def guards : List String := ["is not safe, use", "Can't instantiate abstract class"]

/-- The parts of a complaint that mean no. -/
def refusals : Probe → List String
  | constructible => [notClass, notApplicable]
  | constructsOnly => [notApplicable]

/-- The parts of a complaint that nevertheless mean yes. -/
def concessions : Probe → List String
  | constructible => guards
  | constructsOnly => []

/-- Whether a complaint has one of some parts. -/
def saysAnyOf (parts : List String) (complaint : String) : Bool :=
  parts.any fun part => mentions part.toList complaint.toList

/-- The verdict that a complaint leads to. -/
def ofComplaint (p : Probe) (complaint : String) : Verdict :=
  if saysAnyOf p.refusals complaint then .no
  else if saysAnyOf p.concessions complaint then .yes
  else .unknown

/-- The verdict that the outcome of an attempt leads to. Only a complaint about a type is read. -/
def conclude (p : Probe) : Except Report Unit → Except Fault Verdict
  | .ok () => .ok .yes
  | .error e => if e.kind.isA "TypeError" then .ok (p.ofComplaint e.message) else .error (.raised e)

/-- The attempt that a probe makes. An object of a class with a finalizer is never allocated, since
the finalizer would run on it. -/
def attempt (h : Heap) (subject : Ref) : Probe → Attempt
  | constructible => if h.hasFinalizer subject then .bindSlot else .allocate
  | constructsOnly => .bindSlot

/-- What looking for a finalizer leaves behind. -/
def touch (h : Heap) (subject : Ref) : Probe → Heap
  | constructible => h.touchDict subject
  | constructsOnly => h

theorem conclude_complaint (p : Probe) (e : Report) (h : e.kind.isA "TypeError" = true) :
    p.conclude (.error e) = .ok (p.ofComplaint e.message) := by
  simp [conclude, h]

end Probe

namespace World

/-- Puts a question to an object, with the interceptions of a tracker. -/
def probe (w : World) (id : Nat) (p : Probe) (subject : Ref) : Except Fault Verdict × World :=
  let attempt := p.attempt w.heap subject
  let outcome := match (w.tracker id).intercept.1 with
    | .genuine => attempt.outcome w.heap subject
    | .succeed => .ok ()
    | .fail e => .error e
  (p.conclude outcome,
    { w with heap := p.touch w.heap subject }.withTracker id fun t => t.intercept.2)

end World

end CallableKinds
