import CallableKinds.Proofs.Classification

/-!
# What studies find

With genuine interceptions an object constructs others only if it is a class, and it was made by a
class statement if it is a class and its text says so besides. Whether a class constructs others is
read off the complaint about allocating a blank object of it, if there is one, and that may leave the
question open. So what a study finds can be told from the heap, the routine of the object and its
segments, and a study fails only if that question is left open or the object has no routine.
-/

namespace CallableKinds

namespace Probe

/-- What is said behind a complaint does not change what the complaint says. -/
theorem saysAnyOf_append {parts : List String} {complaint : String}
    (said : saysAnyOf parts complaint = true) (more : String) :
    saysAnyOf parts (complaint ++ more) = true := by
  obtain ⟨part, member, hpart⟩ := List.any_eq_true.mp said
  refine List.any_eq_true.mpr ⟨part, member, mentions_iff.mpr ?_⟩
  rw [String.toList_append]
  exact (mentions_iff.mp hpart).trans (List.prefix_append ..).isInfix

/-- A complaint about an object that is no class is recognized by the probe that gets it. -/
theorem saysAnyOf_complaint (p : Probe) (h : Heap) (r : Ref) (typeName : String) :
    saysAnyOf p.refusals ((p.attempt h r).complaint typeName) = true := by
  have hslot (p : Probe) :
      saysAnyOf p.refusals "descriptor '__call__' for 'type' objects doesn't apply to a '" =
        true := by
    cases p <;> decide +kernel
  have hallocate :
      saysAnyOf constructible.refusals "object.__new__(X): X is not a type object (" = true := by
    decide +kernel
  cases p with
  | constructible =>
      rw [attempt]
      split
      · exact saysAnyOf_append (saysAnyOf_append (hslot _) typeName) _
      · exact saysAnyOf_append (saysAnyOf_append hallocate typeName) _
  | constructsOnly =>
      exact saysAnyOf_append (saysAnyOf_append (hslot _) typeName) _

/-- The verdict of a probe whose attempt is carried out. -/
def verdict (p : Probe) (h : Heap) (r : Ref) : Verdict :=
  match (p.attempt h r).refusal? h r with
  | some complaint => p.ofComplaint complaint
  | none => .yes

/-- A genuine attempt is never refused with an error that has to be passed on. -/
theorem conclude_attempt (p : Probe) (h : Heap) (r : Ref) :
    p.conclude ((p.attempt h r).outcome h r) = .ok (p.verdict h r) := by
  rw [Attempt.outcome, verdict]
  cases (p.attempt h r).refusal? h r with
  | none => rfl
  | some complaint => exact conclude_complaint p _ rfl

theorem verdict_of_not_class {h : Heap} {r : Ref} (noClass : h.isClass r = false) (p : Probe) :
    p.verdict h r = .no := by
  have refused : (p.attempt h r).refusal? h r = some ((p.attempt h r).complaint (h.typeName r)) := by
    simp [Attempt.refusal?, noClass]
  rw [verdict, refused]
  exact if_pos (saysAnyOf_complaint p h r (h.typeName r))

/-- Every class binds the slot that serves constructions. -/
theorem verdict_constructsOnly (h : Heap) (r : Ref) :
    constructsOnly.verdict h r = if h.isClass r then .yes else .no := by
  cases hclass : h.isClass r with
  | true => simp [verdict, attempt, Attempt.refusal?, hclass]
  | false => exact verdict_of_not_class hclass constructsOnly

end Probe

theorem World.probe_eq_verdict {w : World} {id : Nat} (genuine : (w.tracker id).Genuine) (p : Probe)
    (r : Ref) : (w.probe id p r).1 = .ok (p.verdict w.heap r) := by
  rw [probe_of_genuine genuine, Probe.conclude_attempt]

namespace Study

variable {s : Study}

/-- Whether the object is a class. -/
def subjectIsClass (s : Study) : Bool := s.heap.isClass s.subject

/-- Whether the object is a class with the text of a class statement. -/
def hasClassStatement (s : Study) : Bool := s.hasClassHead && s.subjectIsClass

/-- Whether the object constructs others, as a genuine probe finds it. -/
def constructs (s : Study) : Except Fault Bool :=
  s.looked.conclude .constructible (Probe.constructible.verdict s.heap s.subject)

/-- The study after the questions were put to the object; the second one is not, if the first one is
left open. -/
def informed (s : Study) : Study :=
  match s.constructs with
  | .ok constructs =>
    { s.looked with constructor := some constructs, classStatement := some s.hasClassStatement }
  | .error _ => s.looked

/-- Whether the object is a routine that belongs to an object or a class, read off its routine. -/
def memberMethod (s : Study) : Except Fault Bool :=
  if s.isArrow || s.hasClassStatement then .ok false
  else s.routine.map fun routine => routine.isMember s.heap

/-- Whether the object is a routine that belongs to an object or a class, if it is said whether a
class statement made it. -/
def membership (s : Study) (isClass : Bool) : Except Fault Bool :=
  if s.isArrow || isClass then .ok false else s.routine.map fun routine => routine.isMember s.heap

/-- The record of a callable that goes back to the object, if it is said what the probes found. -/
def told (s : Study) (t : Tracker) (target source : Ref) (isConstructor isClass : Bool) :
    Except Fault FeatureRecord := do
  let state := t.state target
  let isAsync ← s.isAsync
  let isMemberMethod ← s.membership isClass
  let isGenerator ← s.isGenerator
  return { isConstructor, isClass, isClassic := isConstructor && !isClass,
           isProxy := state.isProxy, isBound := state.isBound, wasProxy := state.wasProxy,
           wasBound := state.wasBound, isArrow := s.isArrow, isAsync, isMemberMethod, isGenerator,
           target, source }

/-- The record of a callable that goes back to the object. -/
def record (s : Study) (t : Tracker) (target source : Ref) : Except Fault FeatureRecord := do
  s.looked.told t target source (← s.constructs) s.hasClassStatement

@[simp] theorem isClass_touchDict (h : Heap) (r s : Ref) :
    (h.touchDict r).isClass s = h.isClass s := by
  simp only [Heap.isClass, Heap.shape_touchDict]

@[simp] theorem subjectIsClass_looked (s : Study) :
    s.looked.subjectIsClass = s.subjectIsClass :=
  isClass_touchDict ..

@[simp] theorem hasClassStatement_looked (s : Study) :
    s.looked.hasClassStatement = s.hasClassStatement :=
  congrArg (s.hasClassHead && ·) s.subjectIsClass_looked

theorem record_of_constructs {constructs : Bool} (found : s.constructs = .ok constructs)
    (t : Tracker) (target source : Ref) :
    s.record t target source = s.looked.told t target source constructs s.hasClassStatement := by
  rw [record, found]
  rfl

theorem constructs_of_record {t : Tracker} {target source : Ref} {record : FeatureRecord}
    (found : s.record t target source = .ok record) : s.constructs = .ok record.isConstructor := by
  obtain ⟨constructs, hconstructs, found⟩ := ok_of_bind found
  obtain ⟨_, -, found⟩ := ok_of_bind found
  obtain ⟨_, -, found⟩ := ok_of_bind found
  obtain ⟨_, -, found⟩ := ok_of_bind found
  cases found
  exact hconstructs

theorem constructs_of_not_class (noClass : s.subjectIsClass = false) : s.constructs = .ok false := by
  rw [constructs, Probe.verdict_of_not_class noClass]
  rfl

/-- An object that is found to construct others is one for which the probe says yes. -/
theorem constructs_begin_iff {w : World} {id : Nat} (genuine : (w.tracker id).Genuine) (r : Ref)
    (segments : Segments) :
    (begin w id r segments).constructs = .ok true ↔
      (w.probe id .constructible r).1 = .ok .yes := by
  rw [World.probe_eq_verdict genuine, constructs, heap, begin]
  cases Probe.constructible.verdict w.heap r <;> simp [conclude]

theorem subjectIsClass_of_constructs (found : s.constructs = .ok true) : s.subjectIsClass = true := by
  cases hclass : s.subjectIsClass with
  | true => rfl
  | false => cases (constructs_of_not_class hclass).symm.trans found

theorem outcome_ask_of_genuine (genuine : (s.world.tracker s.tracker).Genuine) :
    outcome (ask .constructible) s = (s.constructs, s.looked) ∧
      outcome (ask .constructsOnly) s = (.ok s.subjectIsClass, s) := by
  rw [outcome_ask, outcome_ask, World.probe_of_genuine genuine, World.probe_of_genuine genuine,
    Probe.conclude_attempt, Probe.conclude_attempt, Probe.verdict_constructsOnly, subjectIsClass, heap]
  refine ⟨rfl, ?_⟩
  dsimp only
  cases s.world.heap.isClass s.subject <;> rfl

theorem outcome_isConstructor_of_genuine (genuine : (s.world.tracker s.tracker).Genuine)
    (undecided : s.constructor = none) :
    outcome isConstructor s =
      match s.constructs with
      | .ok found => (.ok found, { s.looked with constructor := some found })
      | .error f => (.error f, s.looked) := by
  rw [outcome_isConstructor, undecided, (outcome_ask_of_genuine genuine).1]
  cases s.constructs <;> rfl

theorem outcome_isClass_of_genuine (genuine : (s.world.tracker s.tracker).Genuine)
    (undecided : s.classStatement = none) :
    outcome isClass s =
      (.ok s.hasClassStatement, { s with classStatement := some s.hasClassStatement }) := by
  rw [outcome_isClass, undecided, hasClassStatement, (outcome_ask_of_genuine genuine).2]
  cases s.hasClassHead <;> rfl

theorem outcome_isClass_of_decided {known : Bool} (decided : s.classStatement = some known) :
    outcome isClass s = (.ok known, s) := by
  rw [outcome_isClass, decided]

theorem outcome_isConstructor_of_decided {known : Bool} (decided : s.constructor = some known) :
    outcome isConstructor s = (.ok known, s) := by
  rw [outcome_isConstructor, decided]

theorem outcome_isClassic_of_decided {constructs known : Bool}
    (constructor : s.constructor = some constructs) (decided : s.classStatement = some known) :
    outcome isClassic s = (.ok (constructs && !known), s) := by
  rw [isClassic, outcome_bind, outcome_isConstructor_of_decided constructor]
  dsimp only
  cases constructs with
  | false => rfl
  | true =>
      rw [if_pos rfl, outcome_bind, outcome_isClass_of_decided decided]
      rfl

theorem outcome_isMemberMethod_of_decided {known : Bool}
    (decided : s.classStatement = some known) :
    outcome isMemberMethod s = (s.membership known, s) := by
  rw [isMemberMethod, membership, outcome_bind, outcome_get]
  dsimp only
  cases s.isArrow with
  | true => rfl
  | false =>
      rw [if_neg Bool.false_ne_true, outcome_bind, outcome_isClass_of_decided decided]
      dsimp only
      cases known with
      | true => rfl
      | false =>
          rw [if_neg Bool.false_ne_true, outcome_bind, outcome_get]
          dsimp only
          rw [outcome_bind, outcome_lift]
          cases s.routine <;> rfl

/-! What is found is kept. -/

theorem constructor_of_ask {p : Probe} {s' : Study} {found : Bool}
    (asked : outcome (ask p) s = (.ok found, s')) : s'.constructor = s.constructor := by
  rw [outcome_ask] at asked
  split at asked
  · obtain ⟨-, rfl⟩ := Prod.mk.inj asked
    rfl
  · cases asked

theorem constructor_of_isConstructor {s' : Study} {found : Bool}
    (asked : outcome isConstructor s = (.ok found, s')) : s'.constructor = some found := by
  rw [outcome_isConstructor] at asked
  split at asked
  next known hknown =>
      cases asked
      exact hknown
  next =>
      split at asked
      · cases asked
        rfl
      · cases asked

theorem kept_of_isClass {s' : Study} {found : Bool}
    (asked : outcome isClass s = (.ok found, s')) :
    s'.classStatement = some found ∧ s'.constructor = s.constructor := by
  rw [outcome_isClass] at asked
  split at asked
  next known hknown =>
      cases asked
      exact ⟨hknown, rfl⟩
  next =>
      split at asked
      · split at asked
        next hask =>
            have hkept := constructor_of_ask hask
            cases asked
            exact ⟨rfl, hkept⟩
        · cases asked
      · cases asked
        exact ⟨rfl, rfl⟩

end Study

namespace Inquiry

/-- What a description tells was found by one question after another. -/
theorem exists_of_describe {t : Tracker} {target source : Ref} {s : Study} {record : FeatureRecord}
    (described : (outcome (describe t target source) s).1 = .ok record) :
    ∃ s₁ s₂ s₃ s₄, outcome Study.isConstructor s = (.ok record.isConstructor, s₁) ∧
      outcome Study.isClass s₁ = (.ok record.isClass, s₂) ∧
      outcome Study.isClassic s₂ = (.ok record.isClassic, s₃) ∧
      s₃.isArrow = record.isArrow ∧ s₃.isAsync = .ok record.isAsync ∧
      outcome Study.isMemberMethod s₃ = (.ok record.isMemberMethod, s₄) ∧
      s₄.isGenerator = .ok record.isGenerator := by
  obtain ⟨isConstructor, s₁, hconstructor, described⟩ := exists_of_outcome_bind described
  obtain ⟨isClass, s₂, hclass, described⟩ := exists_of_outcome_bind described
  obtain ⟨isClassic, s₃, hclassic, described⟩ := exists_of_outcome_bind described
  obtain ⟨_, _, hget, described⟩ := exists_of_outcome_bind described
  cases hget
  obtain ⟨_, _, hget, described⟩ := exists_of_outcome_bind described
  cases hget
  obtain ⟨isAsync, _, hlift, described⟩ := exists_of_outcome_bind described
  rw [outcome_lift] at hlift
  obtain ⟨hasync, rfl⟩ := Prod.mk.inj hlift
  obtain ⟨isMemberMethod, s₄, hmember, described⟩ := exists_of_outcome_bind described
  obtain ⟨_, _, hget, described⟩ := exists_of_outcome_bind described
  cases hget
  obtain ⟨isGenerator, _, hlift, described⟩ := exists_of_outcome_bind described
  rw [outcome_lift] at hlift
  obtain ⟨hgenerator, rfl⟩ := Prod.mk.inj hlift
  cases described
  exact ⟨s₁, s₂, s₃, s₄, hconstructor, hclass, hclassic, rfl, hasync, hmember, hgenerator⟩

/-- When both questions are decided, the rest is read off the study. -/
theorem outcome_describe_of_decided (t : Tracker) (target source : Ref) {s : Study}
    {constructs known : Bool} (constructor : s.constructor = some constructs)
    (decided : s.classStatement = some known) :
    outcome (describe t target source) s = (s.told t target source constructs known, s) := by
  rw [describe, Study.told, outcome_bind, Study.outcome_isConstructor_of_decided constructor]
  dsimp only
  rw [outcome_bind, Study.outcome_isClass_of_decided decided]
  dsimp only
  rw [outcome_bind, Study.outcome_isClassic_of_decided constructor decided]
  dsimp only
  rw [outcome_bind, outcome_get]
  dsimp only
  rw [outcome_bind, outcome_get]
  dsimp only
  rw [outcome_bind, outcome_lift]
  cases s.isAsync with
  | error f => rfl
  | ok isAsync =>
      dsimp only
      rw [outcome_bind, Study.outcome_isMemberMethod_of_decided decided]
      cases s.membership known with
      | error f => rfl
      | ok isMemberMethod =>
          dsimp only
          rw [outcome_bind, outcome_get]
          dsimp only
          rw [outcome_bind, outcome_lift]
          cases s.isGenerator <;> rfl

/-- A study puts its two questions first, each of them once. -/
theorem outcome_describe (t : Tracker) (target source : Ref) (s : Study) :
    outcome (describe t target source) s =
      match outcome Study.isConstructor s with
      | (.ok constructs, s₁) =>
        match outcome Study.isClass s₁ with
        | (.ok known, s₂) => (s₂.told t target source constructs known, s₂)
        | (.error f, s₂) => (.error f, s₂)
      | (.error f, s₁) => (.error f, s₁) := by
  rw [describe, outcome_bind]
  rcases hconstructor : outcome Study.isConstructor s with ⟨f | constructs, s₁⟩
  · rfl
  dsimp only
  rw [outcome_bind]
  rcases hclass : outcome Study.isClass s₁ with ⟨f | known, s₂⟩
  · rfl
  -- now both are decided, and asking again would come to the same
  obtain ⟨hdecided, hkept⟩ := Study.kept_of_isClass hclass
  have hconstructs : s₂.constructor = some constructs :=
    hkept.trans (Study.constructor_of_isConstructor hconstructor)
  have hagain := outcome_describe_of_decided t target source hconstructs hdecided
  rw [describe, outcome_bind, Study.outcome_isConstructor_of_decided hconstructs] at hagain
  dsimp only at hagain
  rw [outcome_bind, Study.outcome_isClass_of_decided hdecided] at hagain
  exact hagain

/-- A study by genuine attempts finds a record, unless it is left open whether the object constructs
others, or the object has no routine. -/
theorem outcome_describe_of_genuine (t : Tracker) (target source : Ref) {s : Study}
    (genuine : (s.world.tracker s.tracker).Genuine) (undecided : s.constructor = none)
    (undecided' : s.classStatement = none) :
    outcome (describe t target source) s = (s.record t target source, s.informed) := by
  rw [outcome_describe, Study.outcome_isConstructor_of_genuine genuine undecided, Study.record,
    Study.informed]
  cases s.constructs with
  | error f => rfl
  | ok constructs =>
      obtain ⟨asked, hasked⟩ : ∃ asked : Study,
          asked = { s.looked with constructor := some constructs } := ⟨_, rfl⟩
      have hgenuine : (asked.world.tracker asked.tracker).Genuine := by
        rw [hasked]
        exact genuine
      have hclass : asked.hasClassStatement = s.hasClassStatement := by
        rw [hasked]
        exact s.hasClassStatement_looked
      dsimp only
      rw [← hasked, Study.outcome_isClass_of_genuine hgenuine (by rw [hasked]; exact undecided'),
        hclass, hasked]
      rfl

end Inquiry

/-! ### What a study may fail with -/

/-- An object without a routine is not callable, or binds a descriptor that is not for it. -/
inductive Fault.NoRoutine : Fault → Prop where
  | notCallable (printed : String) : NoRoutine (.notCallable printed)
  | endless : NoRoutine .endlessCall
  | unfit (message : String) : NoRoutine (.invalidCall message)

/-- It is left open whether an object constructs others. -/
inductive Fault.Undecided : Fault → Prop where
  | constructible (printed dump : String) :
      Undecided (.indeterminate printed (Study.inWords .constructible) dump)

/-- How a record is not handed out. -/
inductive Fault.NoRecord : Fault → Prop where
  | missing (key : String) : NoRecord (.missingKey key)
  | inconsistent (violations : List String) (diagnostics : String) :
      NoRecord (.inconsistent violations diagnostics)

namespace Heap

theorem failsOnly_boundDescriptor (h : Heap) (r slot : Ref) (b : BuiltinInfo) :
    FailsOnly Fault.NoRoutine (h.boundDescriptor r slot b) := by
  rw [boundDescriptor]
  split
  · exact .ok _
  · split <;> exact .error (.unfit _)

theorem failsOnly_routineFrom (h : Heap) (n : Nat) (r : Ref) :
    FailsOnly Fault.NoRoutine (h.routineFrom n r) := by
  induction n generalizing r with
  | zero =>
      exact .error .endless
  | succ n ih =>
      rw [routineFrom]
      dsimp only
      -- What an object shows as its `__call__` is a routine, is followed, or cannot be called.
      repeat' split
      all_goals first
        | exact .ok _
        | exact ih _
        | exact failsOnly_boundDescriptor h r _ _
        | exact .error (.notCallable _)

theorem failsOnly_routine (h : Heap) (r : Ref) : FailsOnly Fault.NoRoutine (h.routine r) :=
  failsOnly_routineFrom h _ r

end Heap

namespace Rule

variable {features : Features}

theorem failsOnly_read (features : Features) (key : String) :
    FailsOnly Fault.NoRecord (read features key) := by
  rw [read]
  split
  · exact .ok _
  · exact .error (.missing _)

theorem failsOnly_holds (features : Features) (condition : Keyed String Datum) :
    FailsOnly Fault.NoRecord (holds features condition) := by
  induction condition with
  | nil => exact .ok _
  | cons p rest ih =>
      refine (failsOnly_read features p.1).bind fun actual => ?_
      split
      · exact ih
      · exact .ok _

theorem failsOnly_mismatches (features : Features) (conclusion : Keyed String Datum) :
    FailsOnly Fault.NoRecord (mismatches features conclusion) := by
  induction conclusion with
  | nil => exact .ok _
  | cons p rest ih =>
      exact (failsOnly_read features p.1).bind fun actual => ih.bind fun later => .ok _

theorem failsOnly_check (features : Features) (rule : Rule) :
    FailsOnly Fault.NoRecord (rule.check features) := by
  cases rule with
  | nand a b =>
      refine (failsOnly_read features a).bind fun x => ?_
      split
      · refine (failsOnly_read features b).bind fun y => ?_
        split <;> exact .ok _
      · exact .ok _
  | xor a b =>
      refine (failsOnly_read features a).bind fun x => ?_
      exact (failsOnly_read features b).bind fun y => .ok _
  | implies condition conclusion =>
      refine (failsOnly_holds features condition).bind fun holds => ?_
      split
      · refine (failsOnly_mismatches features conclusion).bind fun found => ?_
        split <;> exact .ok _
      · exact .ok _

theorem failsOnly_violations (features : Features) (rules : List Rule) :
    FailsOnly Fault.NoRecord (violations features rules) := by
  induction rules with
  | nil => exact .ok _
  | cons rule rest ih =>
      exact (failsOnly_check features rule).bind fun found => ih.bind fun later => .ok _

end Rule

namespace Study

/-- What is told of an object is found, unless the object has no routine. -/
theorem failsOnly_told (s : Study) (t : Tracker) (target source : Ref)
    (isConstructor isClass : Bool) :
    FailsOnly Fault.NoRoutine (s.told t target source isConstructor isClass) := by
  have hroutine : FailsOnly Fault.NoRoutine s.routine := Heap.failsOnly_routine _ _
  have hasync : FailsOnly Fault.NoRoutine s.isAsync := by
    refine hroutine.bind fun routine => ?_
    split
    · exact .ok _
    · split <;> exact .ok _
  have hmember : FailsOnly Fault.NoRoutine (s.membership isClass) := by
    rw [membership]
    split
    · exact .ok _
    · exact hroutine.map _
  have hgenerator : FailsOnly Fault.NoRoutine s.isGenerator := by
    refine hroutine.bind fun routine => ?_
    split
    · exact .ok _
    · split <;> exact .ok _
  exact hasync.bind fun _ => hmember.bind fun _ => hgenerator.bind fun _ => .ok _

theorem failsOnly_constructs (s : Study) : FailsOnly Fault.Undecided s.constructs := by
  rw [constructs]
  cases Probe.constructible.verdict s.heap s.subject with
  | yes => exact .ok _
  | no => exact .ok _
  | unknown => exact .error (.constructible _ _)

theorem failsOnly_record (s : Study) (t : Tracker) (target source : Ref) :
    FailsOnly (fun f => f.Undecided ∨ f.NoRoutine) (s.record t target source) := by
  have hconstructs : FailsOnly (fun f => f.Undecided ∨ f.NoRoutine) s.constructs :=
    fun f failed => Or.inl (s.failsOnly_constructs f failed)
  exact hconstructs.bind fun _ f failed => Or.inr (s.looked.failsOnly_told t target source _ _ f failed)

end Study

namespace Inquiry

/-- A study by genuine attempts fails if it is left open whether the object constructs others, if the
object has no routine, or if its record is not handed out. -/
theorem failsOnly_study (t : Tracker) (target source : Ref) (rules : List Rule) {s : Study}
    (genuine : (s.world.tracker s.tracker).Genuine) (undecided : s.constructor = none)
    (undecided' : s.classStatement = none) :
    FailsOnly (fun f => (f.Undecided ∨ f.NoRoutine) ∨ f.NoRecord)
      (outcome (do checked rules (← describe t target source)) s).1 := by
  intro f failed
  rw [outcome_bind, outcome_describe_of_genuine t target source genuine undecided undecided']
    at failed
  have hfound := s.failsOnly_record t target source
  generalize s.record t target source = found at failed hfound
  cases found with
  | error f' =>
      cases failed
      exact Or.inl (hfound f rfl)
  | ok record =>
      dsimp only at failed
      rw [outcome_checked] at failed
      cases hviolations : record.violations s.informed.heap rules with
      | error f' =>
          rw [hviolations] at failed
          cases failed
          exact Or.inr (Rule.failsOnly_violations _ _ f hviolations)
      | ok violations =>
          rw [hviolations] at failed
          dsimp only at failed
          split at failed
          · cases failed
          · cases failed
            exact Or.inr (.inconsistent _ _)

/-- In a coherent state the segments of an object are those of the text that is given of it. -/
theorem Coherent.known_eq {q : Inquiry} (coherent : q.Coherent) {r : Ref} {t : SourceText}
    (answered : (q.normalizer.request q.world.heap r).result = .ok t) :
    q.classifier.known r t = Segments.scan t.raw := by
  rw [Classifier.known]
  cases hcache : q.classifier.cache.get? r r with
  | none => rfl
  | some s =>
      obtain ⟨kept, hkept, hscan⟩ := coherent.scanned r s hcache
      rw [Normalizer.request_of_kept hkept] at answered
      cases answered
      exact hscan.symm

end Inquiry

end CallableKinds
