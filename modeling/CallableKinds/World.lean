import CallableKinds.Wrapping.Tracker

/-!
# Worlds

A heap and the trackers of the wraps made in it. At most one tracker is active. The first tracker
that gets active puts the instrumented wrapping primitives, which report every wrap, under the usual
names, and the one that ceases to be active puts the plain ones back, which report nothing. The
instrumented primitives report to the tracker that is active at that moment, however they were come
by.
-/

namespace CallableKinds

/-- What everybody finds under the usual names of the wrapping primitives. -/
structure Primitives where
  /-- The class of callables with fixed arguments. -/
  partialClass : Ref
  /-- The function that makes a function look like another one. -/
  updateWrapper : Ref
  /-- Whether objects of the plain class are copied through the class under the usual name. -/
  copying : Bool
  deriving Repr, DecidableEq, Inhabited

namespace Primitives

/-- The primitives as they are without any tracker. -/
def plain : Primitives := ⟨Catalog.partialClass, Catalog.updateWrapper, false⟩

/-- The primitives that report to the active tracker. -/
def instrumented : Primitives := ⟨Catalog.trackedPartialClass, Catalog.trackedUpdateWrapper, true⟩

end Primitives

/-- Objects, the trackers of their wraps by number, the active tracker, and the primitives under
their usual names. -/
structure World where
  heap : Heap
  trackers : List Tracker
  active : Option Nat
  usual : Primitives
  deriving Inhabited

namespace World

/-- The number of the tracker that every program starts with. -/
def mainTracker : Nat := 0

/-- The tracker with a number. -/
def tracker (w : World) (id : Nat) : Tracker := (w.trackers[id]?).getD default

/-- The world in which a tracker is changed. -/
def withTracker (w : World) (id : Nat) (change : Tracker → Tracker) : World :=
  { w with trackers := w.trackers.modify id change }

/-- The world with a new tracker, which gets the number `w.trackers.length`. -/
def addTracker (w : World) (script : List Interception) : World :=
  { w with trackers := w.trackers ++ [.scripted script] }

/-- The class under the usual name of callables with fixed arguments. -/
def partialClass (w : World) : Ref := w.usual.partialClass

/-- The function under the usual name that makes a function look like another one. -/
def updateWrapper (w : World) : Ref := w.usual.updateWrapper

/-- Whether the function under the usual name reports what it does. -/
def instrumented (w : World) : Bool := w.updateWrapper == Catalog.trackedUpdateWrapper

/-- Makes a tracker the active one. The primitives are put in their places only if none was active
before. -/
def install (w : World) (id : Nat) : World :=
  if w.active = some id then w
  else { w with
    active := some id
    usual := if w.active = none then .instrumented else w.usual }

/-- Leaves no tracker active and puts the plain primitives back, if this tracker was active. -/
def uninstall (w : World) (id : Nat) : World :=
  if w.active = some id then { w with active := none, usual := .plain } else w

/-- The world at the start: the builtin objects, and a tracker that is active and has no records. -/
def initial : World := (⟨.initial, [.scripted []], none, .plain⟩ : World).install mainTracker

/-- Records a wrap in a tracker. -/
def record (w : World) (id : Nat) (target result : Ref) (kind : WrapState) : World :=
  w.withTracker id (Tracker.record w.heap target result kind)

/-- Records a wrap in the active tracker, if there is one. -/
def report (w : World) (target result : Ref) (kind : WrapState) : World :=
  match w.active with
  | some id => w.record id target result kind
  | none => w

/-- The world with a new object, which gets the number `w.heap.size`. -/
def add (w : World) (shape : Shape) : World := { w with heap := w.heap.add shape }

@[simp] theorem active_install (w : World) (id : Nat) : (w.install id).active = some id := by
  rw [install]
  split
  next hactive => exact hactive
  next => rfl

@[simp] theorem heap_install (w : World) (id : Nat) : (w.install id).heap = w.heap := by
  rw [install]
  split <;> rfl

@[simp] theorem trackers_install (w : World) (id : Nat) :
    (w.install id).trackers = w.trackers := by
  rw [install]
  split <;> rfl

@[simp] theorem heap_uninstall (w : World) (id : Nat) : (w.uninstall id).heap = w.heap := by
  rw [uninstall]
  split <;> rfl

@[simp] theorem trackers_uninstall (w : World) (id : Nat) :
    (w.uninstall id).trackers = w.trackers := by
  rw [uninstall]
  split <;> rfl

theorem uninstall_of_ne {w : World} {id : Nat} (h : w.active ≠ some id) : w.uninstall id = w := by
  simp [uninstall, h]

@[simp] theorem active_report (w : World) (target result : Ref) (kind : WrapState) :
    (w.report target result kind).active = w.active := by
  unfold report
  split <;> simp_all [record, withTracker]

@[simp] theorem usual_report (w : World) (target result : Ref) (kind : WrapState) :
    (w.report target result kind).usual = w.usual := by
  unfold report
  split <;> simp [record, withTracker]

@[simp] theorem heap_report (w : World) (target result : Ref) (kind : WrapState) :
    (w.report target result kind).heap = w.heap := by
  unfold report
  split <;> simp [record, withTracker]

end World

end CallableKinds
