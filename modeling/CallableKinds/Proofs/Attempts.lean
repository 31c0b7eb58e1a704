import CallableKinds.Proofs.Alike

/-!
# What attempts come to

A tracker may hand back attempts of any outcome. A classification makes the attempt of the first
question once, and that of the second once at most: behind the first, if that one was decided and the
text of the source is that of a class statement. An outcome decides a question, or the
classification fails with it; the record says what was decided, whichever of its fields read the
verdicts.
-/

namespace CallableKinds

/-- What comes of an attempt that a tracker intercepts. -/
def Interception.outcome (h : Heap) (subject : Ref) (a : Attempt) :
    Interception → Except Report Unit
  | .succeed => .ok ()
  | .fail e => .error e
  | .genuine => a.outcome h subject

/-! ### Verdicts -/

namespace Probe

/-- A complaint has one of some parts. -/
def Says (parts : List String) (complaint : String) : Prop :=
  ∃ part ∈ parts, part.toList <:+: complaint.toList

theorem saysAnyOf_iff {parts : List String} {complaint : String} :
    saysAnyOf parts complaint = true ↔ Says parts complaint := by
  simp only [saysAnyOf, List.any_eq_true, mentions_iff, Says]

/-- The outcome of an attempt decides the question of a probe. -/
inductive Decides (p : Probe) : Except Report Unit → Bool → Prop where
  | served : Decides p (.ok ()) true
  /-- The complaint means no, whatever else it says. -/
  | refused {e : Report} (type : e.kind.isA "TypeError" = true)
      (refusal : Says p.refusals e.message) : Decides p (.error e) false
  | conceded {e : Report} (type : e.kind.isA "TypeError" = true)
      (unrefused : ¬ Says p.refusals e.message) (concession : Says p.concessions e.message) :
      Decides p (.error e) true

end Probe

namespace Study

/-- The outcome of an attempt lets the study of an object fail. -/
inductive FailsBy (s : Study) (p : Probe) : Except Report Unit → Fault → Prop where
  /-- A complaint about a type that is not recognized. -/
  | unrecognized {e : Report} (type : e.kind.isA "TypeError" = true)
      (unknown : ¬ Probe.Says (p.refusals ++ p.concessions) e.message) :
      FailsBy s p (.error e) (.indeterminate (s.heap.print s.subject) (inWords p) s.dump)
  /-- An error of another kind, which is passed on. -/
  | other {e : Report} (kind : e.kind.isA "TypeError" = false) :
      FailsBy s p (.error e) (.raised e)

/-- What the outcome of an attempt answers to the question of a probe. -/
def answer (s : Study) (p : Probe) (outcome : Except Report Unit) : Except Fault Bool :=
  p.conclude outcome >>= s.conclude p

/-- An outcome decides the question or lets the study fail. -/
theorem decides_or_failsBy (s : Study) (p : Probe) (o : Except Report Unit) :
    (∃ found, s.answer p o = .ok found ∧ p.Decides o found) ∨
      ∃ f, s.answer p o = .error f ∧ s.FailsBy p o f := by
  cases o with
  | ok u =>
      exact Or.inl ⟨true, rfl, .served⟩
  | error e =>
      cases type : e.kind.isA "TypeError" with
      | false =>
          refine Or.inr ⟨.raised e, ?_, .other type⟩
          rw [answer, Probe.conclude, type]
          rfl
      | true =>
          rw [answer, Probe.conclude_complaint p e type, Probe.ofComplaint]
          split
          next refusal =>
              exact Or.inl ⟨false, rfl, .refused type (Probe.saysAnyOf_iff.mp refusal)⟩
          next unrefused =>
              have hunrefused := mt Probe.saysAnyOf_iff.mpr unrefused
              split
              next concession =>
                  exact Or.inl ⟨true, rfl,
                    .conceded type hunrefused (Probe.saysAnyOf_iff.mp concession)⟩
              next unconceded =>
                  refine Or.inr ⟨_, rfl, .unrecognized type ?_⟩
                  rintro ⟨part, member, said⟩
                  rcases List.mem_append.mp member with member | member
                  · exact hunrefused ⟨part, member, said⟩
                  · exact unconceded (Probe.saysAnyOf_iff.mpr ⟨part, member, said⟩)

end Study

/-! ### Attempts in sequence -/

namespace World

/-- What comes of the attempt of a probe that follows on so many others. -/
def attempted (w : World) (id before : Nat) (p : Probe) (subject : Ref) : Except Report Unit :=
  ((w.tracker id).script[before]?.getD .genuine).outcome w.heap subject (p.attempt w.heap subject)

/-- The world after some probes of an object, one after another. -/
def probed (w : World) (id : Nat) (subject : Ref) (ps : List Probe) : World :=
  ps.foldl (fun w p => (w.probe id p subject).2) w

theorem probe_fst (w : World) (id : Nat) (p : Probe) (r : Ref) :
    (w.probe id p r).1 = p.conclude (w.attempted id 0 p r) := by
  have hnext : (w.tracker id).intercept.1 = (w.tracker id).script[0]?.getD .genuine := by
    rw [Tracker.intercept]
    split
    next hscript => simp [hscript]
    next hscript => simp [hscript]
  rw [attempted, ← hnext, probe]
  cases (w.tracker id).intercept.1 <;> rfl

/-- Probes only look at their object. -/
theorem alike_probed (w : World) (id : Nat) (r : Ref) (ps : List Probe) :
    (w.probed id r ps).heap.Alike w.heap := by
  induction ps generalizing w with
  | nil =>
      exact .refl _
  | cons p rest ih =>
      refine (ih (w.probe id p r).2).trans ?_
      cases p with
      | constructible => exact .touchDict w.heap r
      | constructsOnly => exact .refl w.heap

/-- An interception is taken from the script of the tracker. -/
theorem script_withTracker_intercept (w : World) (id : Nat) :
    ((w.withTracker id fun t => t.intercept.2).tracker id).script =
      (w.tracker id).script.drop 1 := by
  rw [tracker_withTracker]
  split
  next =>
      rw [Tracker.intercept]
      split
      next hscript => rw [hscript, List.drop_nil]
      next hscript => rw [hscript, List.drop_one, List.tail_cons]
  next absent =>
      have hnone : w.trackers[id]? = none :=
        List.getElem?_eq_none (Nat.not_lt.mp fun hlt => absent ⟨rfl, hlt⟩)
      have hdefault : w.tracker id = default := by rw [tracker, hnone, Option.getD_none]
      rw [hdefault]
      rfl

/-- Each probe takes one attempt from the tracker. -/
theorem script_probed (w : World) (id : Nat) (r : Ref) (ps : List Probe) :
    ((w.probed id r ps).tracker id).script = (w.tracker id).script.drop ps.length := by
  induction ps generalizing w with
  | nil =>
      rfl
  | cons p rest ih =>
      have hnext : ((w.probe id p r).2.tracker id).script = (w.tracker id).script.drop 1 :=
        w.script_withTracker_intercept id
      rw [probed, List.foldl_cons, ← probed, ih, hnext, List.drop_drop, Nat.add_comm,
        List.length_cons]

/-- The outcomes of attempts do not depend on earlier ones, but come in sequence. -/
theorem attempted_probed (w : World) (id n : Nat) (p : Probe) (r : Ref) (ps : List Probe) :
    (w.probed id r ps).attempted id n p r = w.attempted id (ps.length + n) p r := by
  have halike := w.alike_probed id r ps
  rw [attempted, attempted, script_probed, List.getElem?_drop, halike.attempt]
  cases (w.tracker id).script[ps.length + n]?.getD .genuine with
  | genuine => exact halike.outcome r _
  | succeed => rfl
  | fail e => rfl

end World

namespace Study

variable {s s' : Study}

/-- The study after some probes of its object. -/
def after (s : Study) (ps : List Probe) : Study :=
  { s with world := s.world.probed s.tracker s.subject ps }

theorem alike_after (s : Study) (ps : List Probe) : (s.after ps).Alike s where
  heap := s.world.alike_probed s.tracker s.subject ps
  subject := rfl
  segments := rfl

theorem Alike.trans {s'' : Study} (later : s''.Alike s') (first : s'.Alike s) : s''.Alike s where
  heap := later.heap.trans first.heap
  subject := later.subject.trans first.subject
  segments := later.segments.trans first.segments

theorem Alike.answer (alike : s'.Alike s) (p : Probe) (o : Except Report Unit) :
    s'.answer p o = s.answer p o := by
  rw [Study.answer, Study.answer, funext (alike.conclude p)]

/-- A question is answered by the next attempt. -/
theorem outcome_ask_eq (p : Probe) (s : Study) :
    outcome (ask p) s =
      (s.answer p (s.world.attempted s.tracker 0 p s.subject), s.after [p]) := by
  have hworld : (s.world.probe s.tracker p s.subject).2 =
      s.world.probed s.tracker s.subject [p] := rfl
  have hverdict := s.world.probe_fst s.tracker p s.subject
  rw [outcome_ask, ← (s.alike_after [p]).answer, answer, after]
  generalize s.world.probe s.tracker p s.subject = probed at hworld hverdict
  obtain ⟨result, world⟩ := probed
  dsimp only at hworld hverdict
  rw [← hworld, ← hverdict]
  cases result <;> rfl

end Study

/-! ### The course of a classification -/

/-- A record says what the probes of its source found, in every field that depends on it. -/
structure FeatureRecord.Tells (record : FeatureRecord) (s : Study) (constructs known : Bool) :
    Prop where
  isConstructor : record.isConstructor = constructs
  isClass : record.isClass = known
  isClassic : record.isClassic = (constructs && !known)
  isArrow : record.isArrow = s.isArrow
  isMemberMethod : record.isMemberMethod = true ↔ s.isArrow = false ∧ known = false ∧
    ∃ routine, s.routine = .ok routine ∧ routine.isMember s.heap = true

namespace Study

/-- How a classification ends when both questions are decided. -/
inductive Ends (s : Study) (constructs known : Bool) : Except Fault FeatureRecord → Prop where
  | recorded {record : FeatureRecord} (tells : record.Tells s constructs known) :
      Ends s constructs known (.ok record)
  /-- The source has no routine, or the record breaks the rules. -/
  | unrecorded {f : Fault} (fault : f.NoRoutine ∨ f.NoRecord) :
      Ends s constructs known (.error f)

/-- The probes that a classification makes with attempts of given outcomes, and how it ends. -/
inductive Course (s : Study) (first second : Except Report Unit) :
    List Probe → Except Fault FeatureRecord → Prop where
  /-- The first attempt decides nothing. -/
  | unanswered {f : Fault} (failed : s.FailsBy .constructible first f) :
      Course s first second [.constructible] (.error f)
  /-- The text is not that of a class statement, and there is no second attempt. -/
  | headless {constructs : Bool} {result : Except Fault FeatureRecord}
      (decided : Probe.Decides .constructible first constructs) (head : s.hasClassHead = false)
      (ends : s.Ends constructs false result) : Course s first second [.constructible] result
  /-- The second attempt decides nothing. -/
  | unconfirmed {constructs : Bool} {f : Fault}
      (decided : Probe.Decides .constructible first constructs) (head : s.hasClassHead = true)
      (failed : s.FailsBy .constructsOnly second f) :
      Course s first second [.constructible, .constructsOnly] (.error f)
  | confirmed {constructs known : Bool} {result : Except Fault FeatureRecord}
      (decided : Probe.Decides .constructible first constructs) (head : s.hasClassHead = true)
      (decided' : Probe.Decides .constructsOnly second known)
      (ends : s.Ends constructs known result) :
      Course s first second [.constructible, .constructsOnly] result

/-- What is told of an object agrees with what was said the probes found. -/
theorem tells_of_told {s s' : Study} (alike : s'.Alike s) {t : Tracker} {target source : Ref}
    {constructs known : Bool} {record : FeatureRecord}
    (told : s'.told t target source constructs known = .ok record) :
    record.Tells s constructs known := by
  obtain ⟨isAsync, -, told⟩ := ok_of_bind told
  obtain ⟨isMemberMethod, hmember, told⟩ := ok_of_bind told
  obtain ⟨isGenerator, -, told⟩ := ok_of_bind told
  cases told
  refine ⟨rfl, rfl, rfl, alike.isArrow, ?_⟩
  dsimp only
  rw [membership, alike.isArrow, alike.routine] at hmember
  cases harrow : s.isArrow with
  | true =>
      rw [harrow] at hmember
      cases hmember
      simp
  | false =>
      cases known with
      | true =>
          rw [harrow] at hmember
          cases hmember
          simp
      | false =>
          rw [harrow, Bool.or_self, if_neg Bool.false_ne_true] at hmember
          obtain ⟨routine, hroutine, rfl⟩ := exists_of_map_eq_ok hmember
          rw [alike.heap.isMember]
          simp [hroutine]

end Study

namespace Inquiry

/-- When both questions are decided, a classification ends accordingly, and nothing else is found
out. -/
theorem ends_of_describe {s s₁ s₂ : Study} {constructs known : Bool}
    (answered : outcome Study.isConstructor s = (.ok constructs, s₁))
    (answered' : outcome Study.isClass s₁ = (.ok known, s₂)) (alike : s₂.Alike s)
    (rules : List Rule) (t : Tracker) (target source : Ref) :
    ∃ result, s.Ends constructs known result ∧
      outcome (do checked rules (← describe t target source)) s = (result, s₂) := by
  have hdescribed : outcome (describe t target source) s =
      (s₂.told t target source constructs known, s₂) := by
    rw [outcome_describe, answered]
    dsimp only
    rw [answered']
  rw [outcome_bind, hdescribed]
  cases htold : s₂.told t target source constructs known with
  | error f =>
      exact ⟨_, .unrecorded (Or.inl (s₂.failsOnly_told t target source constructs known f htold)),
        rfl⟩
  | ok record =>
      dsimp only
      rw [outcome_checked]
      cases hviolations : record.violations s₂.heap rules with
      | error f =>
          exact ⟨_, .unrecorded (Or.inr (Rule.failsOnly_violations _ _ f hviolations)), rfl⟩
      | ok violations =>
          dsimp only
          split
          · exact ⟨_, .recorded (Study.tells_of_told alike htold), rfl⟩
          · exact ⟨_, .unrecorded (Or.inr (.inconsistent _ _)), rfl⟩

/-- A study of an object of which nothing was found out yet takes its course. -/
theorem course_of_describe (rules : List Rule) (t : Tracker) (target source : Ref) {s : Study}
    (undecided : s.constructor = none) (undecided' : s.classStatement = none) :
    ∃ probes result s', outcome (do checked rules (← describe t target source)) s = (result, s') ∧
      s'.world = (s.after probes).world ∧
      s.Course (s.world.attempted s.tracker 0 .constructible s.subject)
        (s.world.attempted s.tracker 1 .constructsOnly s.subject) probes result := by
  obtain ⟨constructs, hanswer, decided⟩ | ⟨f, hanswer, failed⟩ :=
    s.decides_or_failsBy .constructible (s.world.attempted s.tracker 0 .constructible s.subject)
  · obtain ⟨asked, hasked⟩ : ∃ asked : Study,
        asked = { s.after [.constructible] with constructor := some constructs } := ⟨_, rfl⟩
    have halike : asked.Alike s := by
      rw [hasked]
      exact ⟨(s.alike_after [.constructible]).heap, rfl, rfl⟩
    have hconstructor : outcome Study.isConstructor s = (.ok constructs, asked) := by
      rw [Study.outcome_isConstructor, undecided, Study.outcome_ask_eq, hanswer, hasked]
    have hundecided : asked.classStatement = none := hasked ▸ undecided'
    have hhead : asked.hasClassHead = s.hasClassHead := hasked ▸ rfl
    cases head : s.hasClassHead with
    | false =>
        have hclass : outcome Study.isClass asked =
            (.ok false, { asked with classStatement := some false }) := by
          rw [Study.outcome_isClass, hundecided, hhead, head]
          rfl
        obtain ⟨result, ends, hrun⟩ := ends_of_describe hconstructor hclass
          ⟨halike.heap, halike.subject, halike.segments⟩ rules t target source
        exact ⟨_, _, _, hrun, hasked ▸ rfl, .headless decided head ends⟩
    | true =>
        have hsecond : asked.world.attempted asked.tracker 0 .constructsOnly asked.subject =
            s.world.attempted s.tracker 1 .constructsOnly s.subject := by
          rw [hasked]
          exact World.attempted_probed ..
        have hworld : (asked.after [.constructsOnly]).world =
            (s.after [.constructible, .constructsOnly]).world := by
          rw [hasked]
          rfl
        have halike' : (asked.after [.constructsOnly]).Alike s :=
          (asked.alike_after [.constructsOnly]).trans halike
        obtain ⟨known, hanswer', decided'⟩ | ⟨f, hanswer', failed⟩ :=
          s.decides_or_failsBy .constructsOnly
            (s.world.attempted s.tracker 1 .constructsOnly s.subject)
        · have hclass : outcome Study.isClass asked =
              (.ok known, { asked.after [.constructsOnly] with classStatement := some known }) := by
            rw [Study.outcome_isClass, hundecided, hhead, head, Study.outcome_ask_eq, hsecond,
              halike.answer, hanswer']
            rfl
          obtain ⟨result, ends, hrun⟩ := ends_of_describe hconstructor hclass
            ⟨halike'.heap, halike'.subject, halike'.segments⟩ rules t target source
          exact ⟨_, _, _, hrun, hworld, .confirmed decided head decided' ends⟩
        · have hclass : outcome Study.isClass asked =
              (.error f, asked.after [.constructsOnly]) := by
            rw [Study.outcome_isClass, hundecided, hhead, head, Study.outcome_ask_eq, hsecond,
              halike.answer, hanswer']
            rfl
          refine ⟨_, _, _, ?_, hworld, .unconfirmed decided head failed⟩
          rw [outcome_bind, outcome_describe, hconstructor]
          dsimp only
          rw [hclass]
  · have hconstructor : outcome Study.isConstructor s = (.error f, s.after [.constructible]) := by
      rw [Study.outcome_isConstructor, undecided, Study.outcome_ask_eq, hanswer]
    refine ⟨_, _, _, ?_, rfl, .unanswered failed⟩
    rw [outcome_bind, outcome_describe, hconstructor]

/-- A study begins in the present world with nothing found out yet. -/
theorem begin_of_analyse {q : Inquiry} {r : Ref} {study : Study}
    (available : (outcome (analyse r) q).1 = .ok study) :
    ∃ segments, study = .begin q.world q.classifier.tracker r segments := by
  cases hresult : (q.normalizer.request q.world.heap r).result with
  | error f =>
      rw [outcome_analyse_of_error hresult] at available
      cases available
  | ok t =>
      obtain ⟨asked, hrun⟩ := outcome_analyse_of_text hresult
      rw [hrun] at available
      cases hknown : q.classifier.known r t with
      | error f =>
          rw [hknown] at available
          cases available
      | ok segments =>
          rw [hknown] at available
          cases available
          exact ⟨segments, rfl⟩

/-- However the attempts of a tracker come out, a classification of a callable takes its course with
them: it makes the probes of that course, one attempt for each. -/
theorem course_of_classify (q : Inquiry) (candidate : Ref) (study : Study)
    (callable : q.world.heap.callable candidate = true)
    (available : (outcome (analyse (q.tracker.source candidate)) q).1 = .ok study) :
    ∃ probes,
      study.Course
        (q.world.attempted q.classifier.tracker 0 .constructible (q.tracker.source candidate))
        (q.world.attempted q.classifier.tracker 1 .constructsOnly (q.tracker.source candidate))
        probes (outcome (classify candidate) q).1 ∧
      (outcome (classify candidate) q).2.world =
        q.world.probed q.classifier.tracker (q.tracker.source candidate) probes ∧
      ((outcome (classify candidate) q).2.world.tracker q.classifier.tracker).script =
        q.tracker.script.drop probes.length := by
  obtain ⟨q', hanalyse⟩ : ∃ q', outcome (analyse (q.tracker.source candidate)) q = (.ok study, q') :=
    ⟨_, Prod.ext available rfl⟩
  obtain ⟨segments, hstudy⟩ := begin_of_analyse available
  obtain ⟨probes, result, s', hrun, hworld, hcourse⟩ := course_of_describe q.classifier.rules
    q.tracker candidate (q.tracker.source candidate) (s := study) (hstudy ▸ rfl) (hstudy ▸ rfl)
  have hclassified : outcome (classify candidate) q = (result, { q' with world := s'.world }) := by
    rw [outcome_classify, if_pos callable, hanalyse]
    dsimp only
    rw [outcome_studying, hrun]
  have hworld' : s'.world =
      q.world.probed q.classifier.tracker (q.tracker.source candidate) probes := by
    rw [hworld, hstudy]
    rfl
  rw [hclassified]
  refine ⟨probes, ?_, hworld', ?_⟩
  · rw [hstudy] at hcourse ⊢
    exact hcourse
  · dsimp only
    rw [hworld']
    exact World.script_probed ..

/-- A complaint about a class that guards the allocation of its objects. -/
def guardedComplaint : Report :=
  .ofMessage (.standard "TypeError") "object.__new__(f) is not safe, use f.__new__()"

/-- A complaint that a guard is mentioned in, but that means no. -/
def refusedComplaint : Report :=
  .ofMessage (.standard "TypeError") "'__call__' is not safe, use f: it doesn't apply to a 'type'"

/-- A class with a tracker that refuses both attempts. -/
def refusing : Inquiry :=
  fresh (classAndFunction.addTracker [.fail guardedComplaint, .fail refusedComplaint])
    (.listed [(someClass, .ok "class f: pass".toList)]) classAndFunction.trackers.length
    Rule.standard

/-- The class is found to construct objects, but not to be made by the class statement. -/
theorem course_of_classify_refusing :
    ∃ (study : Study) (probes : List Probe) (record : FeatureRecord),
      study.Course (.error guardedComplaint) (.error refusedComplaint) probes (.ok record) ∧
      (record.isConstructor, record.isClass, record.isClassic) = (true, false, true) ∧
      (outcome (classify someClass) refusing).2.world =
        refusing.world.probed refusing.classifier.tracker someClass probes ∧
      refusing.tracker.script.drop probes.length = [] := by
  have hsource : refusing.tracker.source someClass = someClass := by decide +kernel
  obtain ⟨study, havailable⟩ : ∃ study,
      (outcome (analyse (refusing.tracker.source someClass)) refusing).1 = .ok study := by
    have hsome : (outcome (analyse (refusing.tracker.source someClass))
        refusing).1.toOption.isSome = true := by decide +kernel
    obtain ⟨study, hstudy⟩ := Option.isSome_iff_exists.mp hsome
    exact ⟨study, eq_ok_of_toOption hstudy⟩
  have hrecord : (outcome (classify someClass) refusing).1.toOption =
      some ⟨true, false, true, false, false, false, false, false, false, false, false, someClass,
        someClass⟩ := by decide +kernel
  have hscript : ((outcome (classify someClass) refusing).2.world.tracker
      refusing.classifier.tracker).script.isEmpty = true := by decide +kernel
  obtain ⟨probes, hcourse, hworld, htaken⟩ :=
    course_of_classify refusing someClass study (by decide +kernel) havailable
  rw [eq_ok_of_toOption hrecord] at hcourse
  rw [hsource] at hworld
  exact ⟨study, probes, _, hcourse, rfl, hworld,
    htaken.symm.trans (List.isEmpty_iff.mp hscript)⟩

end Inquiry

end CallableKinds
