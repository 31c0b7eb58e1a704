import CallableKinds.Heap.Attribute
import CallableKinds.WeakTable
import CallableKinds.Wrapping

/-!
# Trackers

A tracker remembers of callables that a wrap made which callable they go back to and what is known
of the wraps in between. It has an entry for a callable in both tables or in none of them; the
tables do not keep the callable alive.

A tracker also supplies the interceptions that probes work with. It may be scripted: then the
outcomes of its first interceptions are decided in advance.
-/

namespace CallableKinds

/-- What becomes of an intercepted attempt. -/
inductive Interception where
  /-- It succeeds, whatever is attempted. -/
  | succeed
  /-- It fails, whatever is attempted. -/
  | fail (error : Report)
  /-- It is carried out. -/
  | genuine
  deriving Inhabited

/-- The records of wraps, and the script of the interceptions. -/
structure Tracker where
  sources : WeakTable Ref Ref
  states : WeakTable Ref WrapState
  script : List Interception
  deriving Inhabited

namespace Tracker

/-- A tracker without records. -/
def scripted (script : List Interception) : Tracker := ⟨.empty, .empty, script⟩

/-- The callable that a callable goes back to; one without a record goes back to itself. -/
def source (t : Tracker) (r : Ref) : Ref := (t.sources.get? r r).getD r

/-- What is known of the wraps that made a callable. -/
def state (t : Tracker) (r : Ref) : WrapState := (t.states.get? r r).getD .unwrapped

/-- Writes the records of a callable. -/
def put (t : Tracker) (r source : Ref) (state : WrapState) : Tracker :=
  { t with sources := t.sources.set r r source, states := t.states.set r r state }

/-- Records that a wrap of some kind made `result` from `target`. There is nothing to record if the
two are the same or the target is not callable, and no way to if the result cannot be referred to
weakly. -/
def record (h : Heap) (target result : Ref) (kind : WrapState) (t : Tracker) : Tracker :=
  if result = target || !h.callable target || !h.weaklyReferable result then t
  else t.put result (t.source target) (.afterWrap kind (t.state target) (t.state result))

/-- The tracker after the deaths of all callables that are not alive. -/
def prune (t : Tracker) (alive : Ref → Bool) : Tracker :=
  { t with sources := t.sources.prune alive, states := t.states.prune alive }

/-- The outcome of the next interception and the tracker after it. -/
def intercept (t : Tracker) : Interception × Tracker :=
  match t.script with
  | [] => (.genuine, t)
  | next :: rest => (next, { t with script := rest })

/-- The number of entries in each table. -/
def sizes (t : Tracker) : Nat × Nat := (t.sources.entries.length, t.states.entries.length)

@[simp] theorem sources_intercept (t : Tracker) : t.intercept.2.sources = t.sources := by
  unfold intercept
  split <;> rfl

@[simp] theorem states_intercept (t : Tracker) : t.intercept.2.states = t.states := by
  unfold intercept
  split <;> rfl

theorem record_self (h : Heap) (r : Ref) (kind : WrapState) (t : Tracker) :
    t.record h r r kind = t := by
  simp [record]

end Tracker

end CallableKinds
