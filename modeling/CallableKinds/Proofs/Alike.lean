import CallableKinds.Proofs.Findings

/-!
# Studies that see alike

Two studies of one object in heaps that read alike find out the same, and with genuine attempts they
hand out the same record or fail alike.
-/

namespace CallableKinds

namespace FeatureRecord

theorem violations_alike {h h' : Heap} (alike : h'.Alike h) (rules : List Rule)
    (f : FeatureRecord) : f.violations h' rules = f.violations h rules := by
  rw [violations, violations, features, features, alike.print, alike.print]

end FeatureRecord

namespace Study

/-- Two studies of one object with the same segments, in heaps that read alike. -/
structure Alike (s' s : Study) : Prop where
  heap : s'.heap.Alike s.heap
  subject : s'.subject = s.subject
  segments : s'.segments = s.segments

namespace Alike

variable {s s' : Study} (alike : s'.Alike s)

include alike

theorem label : s'.label = s.label := by
  have displayed : ∀ v, s'.heap.displayValue v = s.heap.displayValue v := alike.heap.displayValue
  simp only [Study.label, alike.subject, alike.heap.attribute?, alike.heap.truthyValue, displayed,
    alike.heap.print]

theorem dump : s'.dump = s.dump := by
  unfold Study.dump
  rw [alike.label, alike.segments]

theorem subjectIsClass : s'.subjectIsClass = s.subjectIsClass := by
  rw [Study.subjectIsClass, Study.subjectIsClass, alike.subject, alike.heap.isClass]

theorem hasClassStatement : s'.hasClassStatement = s.hasClassStatement := by
  rw [Study.hasClassStatement, Study.hasClassStatement, hasClassHead, hasClassHead,
    alike.segments, alike.subjectIsClass]

theorem isArrow : s'.isArrow = s.isArrow := by
  rw [Study.isArrow, Study.isArrow, alike.segments]

theorem routine : s'.routine = s.routine := by
  rw [Study.routine, Study.routine, alike.subject, alike.heap.routine]

theorem isAsync : s'.isAsync = s.isAsync := by
  simp only [Study.isAsync, alike.routine, alike.heap.flavor, alike.heap.codeFlags?,
    alike.segments]

theorem isGenerator : s'.isGenerator = s.isGenerator := by
  simp only [Study.isGenerator, alike.routine, alike.heap.flavor, alike.heap.codeFlags?]

theorem membership (isClass : Bool) : s'.membership isClass = s.membership isClass := by
  simp only [Study.membership, alike.isArrow, alike.routine, alike.heap.isMember]

theorem told {t t' : Tracker} {target : Ref} (state : t'.state target = t.state target)
    (source : Ref) (constructs known : Bool) :
    s'.told t' target source constructs known = s.told t target source constructs known := by
  simp only [Study.told, state, alike.isAsync, alike.membership, alike.isGenerator, alike.isArrow]

theorem conclude (p : Probe) (v : Verdict) : s'.conclude p v = s.conclude p v := by
  cases v <;> simp only [Study.conclude, alike.subject, alike.heap.print, alike.dump]

theorem looked : s'.looked.Alike s.looked where
  heap := by
    have looked : s'.looked.heap.Alike s'.heap := .touchDict s'.heap s'.subject
    have looked' : s.looked.heap.Alike s.heap := .touchDict s.heap s.subject
    exact (looked.trans alike.heap).trans looked'.symm
  subject := alike.subject
  segments := alike.segments

theorem constructs : s'.constructs = s.constructs := by
  have verdict : Probe.constructible.verdict s'.heap s'.subject =
      Probe.constructible.verdict s.heap s.subject := by
    rw [alike.subject, Probe.verdict, Probe.verdict, alike.heap.attempt, alike.heap.refusal?]
  rw [Study.constructs, Study.constructs, verdict, alike.looked.conclude]

theorem informed : s'.informed.Alike s.informed := by
  rw [Study.informed, Study.informed, alike.constructs]
  cases s.constructs with
  | error f => exact alike.looked
  | ok constructs => exact ⟨alike.looked.heap, alike.looked.subject, alike.looked.segments⟩

/-- The same is found out of the object. -/
theorem record {t t' : Tracker} {target : Ref} (state : t'.state target = t.state target)
    (source : Ref) : s'.record t' target source = s.record t target source := by
  simp only [Study.record, alike.constructs, alike.hasClassStatement, alike.looked.told state]

end Alike

end Study

namespace Inquiry

/-- With genuine attempts, studies that see alike hand out the same record, or fail alike. -/
theorem outcome_checked_alike {s s' : Study} {t t' : Tracker} {target : Ref} (rules : List Rule)
    (source : Ref) (alike : s'.Alike s) (state : t'.state target = t.state target)
    (genuine : (s.world.tracker s.tracker).Genuine)
    (genuine' : (s'.world.tracker s'.tracker).Genuine)
    (undecided : s.constructor = none ∧ s.classStatement = none)
    (undecided' : s'.constructor = none ∧ s'.classStatement = none) :
    (outcome (do checked rules (← describe t' target source)) s').1 =
      (outcome (do checked rules (← describe t target source)) s).1 := by
  rw [outcome_bind, outcome_bind,
    outcome_describe_of_genuine t' target source genuine' undecided'.1 undecided'.2,
    outcome_describe_of_genuine t target source genuine undecided.1 undecided.2,
    alike.record state]
  cases s.record t target source with
  | error f => rfl
  | ok record =>
      dsimp only
      rw [outcome_checked, outcome_checked,
        FeatureRecord.violations_alike alike.informed.heap, alike.informed.dump]
      cases record.violations s.informed.heap rules with
      | error f => rfl
      | ok violations => dsimp only; split <;> rfl

end Inquiry

end CallableKinds
