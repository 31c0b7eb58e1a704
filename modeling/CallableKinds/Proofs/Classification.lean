import CallableKinds.Proofs.Chain
import CallableKinds.Proofs.Requests
import CallableKinds.Proofs.Studies

/-!
# Classifications of wrapped callables

A classification looks at a callable only to see what it goes back to and how it was wrapped. So all
callables that go back to one have the record of that one, apart from the facts about wraps, and
classifying one of them again gives the same record.
-/

namespace CallableKinds

namespace Rule

/-- The features that a rule may read. -/
def reads : Rule → List String
  | nand a b => [a, b]
  | xor a b => [a, b]
  | implies condition conclusion => (condition ++ conclusion).map (·.1)

variable {features other : Features}

theorem read_congr {key : String} (same : Keyed.find? key features = Keyed.find? key other) :
    read features key = read other key := by
  rw [read, read, same]

theorem holds_congr {condition : Keyed String Datum}
    (same : ∀ p ∈ condition, Keyed.find? p.1 features = Keyed.find? p.1 other) :
    holds features condition = holds other condition := by
  induction condition with
  | nil => rfl
  | cons p rest ih =>
      obtain ⟨hp, hrest⟩ := List.forall_mem_cons.mp same
      simp only [holds, read_congr hp, ih hrest]

theorem mismatches_congr {conclusion : Keyed String Datum}
    (same : ∀ p ∈ conclusion, Keyed.find? p.1 features = Keyed.find? p.1 other) :
    mismatches features conclusion = mismatches other conclusion := by
  induction conclusion with
  | nil => rfl
  | cons p rest ih =>
      obtain ⟨hp, hrest⟩ := List.forall_mem_cons.mp same
      simp only [mismatches, read_congr hp, ih hrest]

/-- Features that a rule does not read make no difference to it. -/
theorem check_congr {rule : Rule}
    (same : ∀ key ∈ rule.reads, Keyed.find? key features = Keyed.find? key other) :
    rule.check features = rule.check other := by
  cases rule with
  | nand a b =>
      simp only [reads, List.forall_mem_cons, List.not_mem_nil] at same
      simp only [check, read_congr same.1, read_congr same.2.1]
  | xor a b =>
      simp only [reads, List.forall_mem_cons, List.not_mem_nil] at same
      simp only [check, read_congr same.1, read_congr same.2.1]
  | implies condition conclusion =>
      simp only [reads, List.map_append, List.forall_mem_append, List.forall_mem_map] at same
      simp only [check, holds_congr same.1, mismatches_congr same.2]

theorem violations_congr {rules : List Rule}
    (same : ∀ rule ∈ rules, rule.check features = rule.check other) :
    violations features rules = violations other rules := by
  induction rules with
  | nil => rfl
  | cons rule rest ih =>
      obtain ⟨hrule, hrest⟩ := List.forall_mem_cons.mp same
      simp only [violations, hrule, ih hrest]

end Rule

namespace FeatureRecord

/-- The record of another callable that goes back to the same source. -/
def seenAs (f : FeatureRecord) (target : Ref) (state : WrapState) : FeatureRecord :=
  { f with
    isProxy := state.isProxy
    isBound := state.isBound
    wasProxy := state.wasProxy
    wasBound := state.wasBound
    target }

/-- The features that do not depend on the wraps of a callable. -/
def ofSource : List String := ["is_constructor", "is_class", "is_classic", "is_arrow", "is_async",
  "is_member_method", "is_generator"]

theorem find?_seenAs (h : Heap) (f : FeatureRecord) (target : Ref) (state : WrapState)
    {key : String} (member : key ∈ ofSource) :
    Keyed.find? key ((f.seenAs target state).features h) = Keyed.find? key (f.features h) := by
  simp only [ofSource, List.mem_cons, List.not_mem_nil, or_false] at member
  rcases member with rfl | rfl | rfl | rfl | rfl | rfl | rfl <;> rfl

/-- The one standard rule about wraps is kept by what is not of both kinds at once. -/
theorem check_wraps (h : Heap) (f : FeatureRecord) (exclusive : (f.isProxy && f.isBound) = false) :
    (Rule.nand "is_proxy" "is_bound").check (f.features h) = .ok none := by
  obtain ⟨_, _, _, p, b, _, _, _, _, _, _, _, _⟩ := f
  cases p <;> cases b <;> first | rfl | cases exclusive

/-- Of the standard rules one is about wraps; the others read features of the source only. -/
theorem reads_standard {rule : Rule} (member : rule ∈ Rule.standard) :
    rule = .nand "is_proxy" "is_bound" ∨ ∀ key ∈ rule.reads, key ∈ ofSource := by
  simp only [Rule.standard, List.mem_cons, List.not_mem_nil, or_false] at member
  rcases member with rfl | rfl | rfl | rfl | rfl | rfl | rfl | rfl | rfl | rfl | rfl | rfl | rfl
  all_goals first | exact Or.inl rfl | exact Or.inr (by decide)

/-- The standard rules judge a callable by its source. -/
theorem violations_seenAs (h : Heap) (f : FeatureRecord) (target : Ref) {state : WrapState}
    (exclusive : (f.isProxy && f.isBound) = false)
    (exclusive' : (state.isProxy && state.isBound) = false) :
    (f.seenAs target state).violations h Rule.standard = f.violations h Rule.standard := by
  refine Rule.violations_congr fun rule member => ?_
  rcases reads_standard member with rfl | hreads
  · rw [check_wraps h _ exclusive', check_wraps h f exclusive]
  · exact Rule.check_congr fun key hkey => find?_seenAs h f target state (hreads key hkey)

end FeatureRecord

/-! ### One source, one record -/

namespace Inquiry

/-- The description of a callable is that of its source, seen as the callable. -/
theorem describe_eq_map (t : Tracker) (target source : Ref) :
    describe t target source =
      (fun record => record.seenAs target (t.state target)) <$> describe t source source := by
  simp only [describe, map_bind, map_pure]
  rfl

theorem describe_eq_map_source (t : Tracker) (target source : Ref) :
    describe t target source =
      (fun record => { record with source }) <$> describe t target source := by
  simp only [describe, map_bind, map_pure]

/-- What a description tells of the wraps of a callable. -/
theorem eq_of_outcome_describe {t : Tracker} {target source : Ref} {study : Study}
    {record : FeatureRecord}
    (described : (outcome (describe t target source) study).1 = .ok record) :
    record.source = source ∧ record.seenAs target (t.state target) = record := by
  constructor
  · rw [describe_eq_map_source, outcome_map] at described
    obtain ⟨r, -, rfl⟩ := exists_of_map_eq_ok described
    rfl
  · rw [describe_eq_map, outcome_map] at described
    obtain ⟨r, -, rfl⟩ := exists_of_map_eq_ok described
    rfl

/-- Rules are checked without finding out anything more. -/
theorem outcome_checked (rules : List Rule) (record : FeatureRecord) (study : Study) :
    outcome (checked rules record) study =
      match record.violations study.heap rules with
      | .ok violations =>
        if violations.isEmpty then (.ok record, study)
        else (.error (.inconsistent violations study.dump), study)
      | .error f => (.error f, study) := by
  rw [checked]
  rw [outcome_bind, outcome_get]
  dsimp only
  rw [outcome_bind, outcome_lift]
  generalize record.violations study.heap rules = found
  cases found with
  | error f => rfl
  | ok violations =>
      dsimp only
      split <;> rfl

/-- The rules are asked about the record of the source, and the record of the callable is handed
out. -/
theorem outcome_checked_seenAs (study : Study) {record : FeatureRecord} (target : Ref)
    {state : WrapState} (exclusive : (record.isProxy && record.isBound) = false)
    (exclusive' : (state.isProxy && state.isBound) = false) :
    outcome (checked Rule.standard (record.seenAs target state)) study =
      ((outcome (checked Rule.standard record) study).1.map (fun r => r.seenAs target state),
        (outcome (checked Rule.standard record) study).2) := by
  rw [outcome_checked, outcome_checked,
    FeatureRecord.violations_seenAs study.heap record target exclusive exclusive']
  cases record.violations study.heap Rule.standard with
  | error f => rfl
  | ok violations =>
      dsimp only
      split <;> rfl

/-- What a study of a source says of a callable that goes back to it. -/
theorem outcome_study (t : Tracker) (target source : Ref) (study : Study)
    (exclusive : ((t.state source).isProxy && (t.state source).isBound) = false)
    (exclusive' : ((t.state target).isProxy && (t.state target).isBound) = false) :
    outcome (do checked Rule.standard (← describe t target source)) study =
      ((outcome (do checked Rule.standard (← describe t source source)) study).1.map
          (fun r => r.seenAs target (t.state target)),
        (outcome (do checked Rule.standard (← describe t source source)) study).2) := by
  rw [outcome_bind, outcome_bind, describe_eq_map t target source, outcome_map]
  cases hdescribed : outcome (describe t source source) study with
  | mk result study' =>
      cases result with
      | error f => rfl
      | ok record =>
          have hrecord := (eq_of_outcome_describe (congrArg Prod.fst hdescribed)).2
          refine outcome_checked_seenAs study' target ?_ exclusive'
          rw [← hrecord]
          exact exclusive

/-- Two callables with one source come to the same in every state of a classifier with the standard
rules: the record of the one is that of the other, seen as the first. -/
theorem outcome_classify_seenAs (q : Inquiry) {target source : Ref}
    (standard : q.classifier.rules = Rule.standard)
    (callable : q.world.heap.callable source = true)
    (callable' : q.world.heap.callable target = true)
    (own : q.tracker.source source = source) (back : q.tracker.source target = source)
    (exclusive : ((q.tracker.state source).isProxy && (q.tracker.state source).isBound) = false)
    (exclusive' : ((q.tracker.state target).isProxy && (q.tracker.state target).isBound) = false) :
    outcome (classify target) q =
      ((outcome (classify source) q).1.map (fun r => r.seenAs target (q.tracker.state target)),
        (outcome (classify source) q).2) := by
  rw [outcome_classify, outcome_classify, if_pos callable, if_pos callable', own, back, standard]
  generalize outcome (analyse source) q = analysed
  obtain ⟨f | study, q'⟩ := analysed
  · rfl
  · dsimp only
    rw [outcome_studying, outcome_studying,
      outcome_study q.tracker target source study exclusive exclusive']

/-- The rules hand out the record that they are asked about. -/
theorem eq_of_outcome_checked {rules : List Rule} {record checkedRecord : FeatureRecord}
    {study : Study} (passed : (outcome (checked rules record) study).1 = .ok checkedRecord) :
    checkedRecord = record := by
  rw [outcome_checked] at passed
  split at passed
  · split at passed
    · cases passed
      rfl
    · cases passed
  · cases passed

/-- The source in a record is what the tracker tells. -/
theorem source_of_classify {q : Inquiry} {candidate : Ref} {record : FeatureRecord}
    (classified : (outcome (classify candidate) q).1 = .ok record) :
    record.source = q.tracker.source candidate := by
  rw [outcome_classify] at classified
  split at classified
  · generalize outcome (analyse (q.tracker.source candidate)) q = analysed at classified
    obtain ⟨f | study, q'⟩ := analysed
    · cases classified
    · dsimp only at classified
      rw [outcome_studying, outcome_bind] at classified
      cases hdescribed : outcome (describe q.tracker candidate (q.tracker.source candidate))
        study with
      | mk result study' =>
          rw [hdescribed] at classified
          cases result with
          | error f =>
              cases classified
          | ok described =>
              rw [eq_of_outcome_checked classified]
              exact (eq_of_outcome_describe (congrArg Prod.fst hdescribed)).1
  · cases classified

/-! ### Once more -/

theorem keeps_checked {P : Study → Prop} (rules : List Rule) (record : FeatureRecord) :
    Keeps P (checked rules record) := by
  intro study holds
  rw [outcome_checked]
  split
  · split <;> exact holds
  · exact holds

/-- A study for a record begins with the first probe. What comes after that keeps all that the parts
of a study keep. -/
theorem exists_study (t : Tracker) (target source : Ref) (rules : List Rule) :
    ∃ next, (do checked rules (← describe t target source)) = Study.isConstructor >>= next ∧
      ∀ P, Keeps P Study.isConstructor → Keeps P Study.isClass → ∀ b, Keeps P (next b) := by
  simp only [describe, bind_assoc, pure_bind]
  refine ⟨_, rfl, fun P hconstructor hclass isConstructor => ?_⟩
  refine hclass.bind fun isClass => ?_
  refine (Study.keeps_isClassic hconstructor hclass).bind fun isClassic => ?_
  apply Keeps.get_bind
  intro atArrow
  refine Keeps.get_bind (fun atAsync => ?_) atArrow
  refine (Keeps.lift atAsync.isAsync).bind (fun isAsync => ?_) atAsync
  refine (Study.keeps_isMemberMethod hclass).bind fun isMemberMethod => ?_
  apply Keeps.get_bind
  intro atGenerator
  refine (Keeps.lift atGenerator.isGenerator).bind (fun isGenerator => ?_) atGenerator
  exact keeps_checked rules _

/-- A classification with the segments of the source at hand. -/
theorem outcome_classify_of_segments {q : Inquiry} {candidate : Ref} {t : SourceText}
    {s : Segments} (callable : q.world.heap.callable candidate = true)
    (answered : (q.normalizer.request q.world.heap (q.tracker.source candidate)).result = .ok t)
    (known : q.classifier.known (q.tracker.source candidate) t = .ok s) :
    ∃ asked, outcome (classify candidate) q =
      let source := q.tracker.source candidate
      let studied := outcome (do
        checked q.classifier.rules (← describe q.tracker candidate source))
        (.begin q.world q.classifier.tracker source s)
      (studied.1, ⟨studied.2.world, (q.normalizer.request q.world.heap source).normalizer,
        q.classifier.keep q.world.heap source s, asked⟩) := by
  obtain ⟨asked, hanalyse⟩ := outcome_analyse_of_text answered
  refine ⟨asked, ?_⟩
  rw [outcome_classify, if_pos callable, hanalyse, known]
  dsimp only
  rw [outcome_studying]

/-- A classification without the segments of the source fails before anything is found out. -/
theorem outcome_classify_of_unknown {q : Inquiry} {candidate : Ref} {t : SourceText}
    {f : Fault} (callable : q.world.heap.callable candidate = true)
    (answered : (q.normalizer.request q.world.heap (q.tracker.source candidate)).result = .ok t)
    (unknown : q.classifier.known (q.tracker.source candidate) t = .error f) :
    ∃ asked, outcome (classify candidate) q = (.error f, ⟨q.world,
      (q.normalizer.request q.world.heap (q.tracker.source candidate)).normalizer,
      q.classifier, asked⟩) := by
  obtain ⟨asked, hanalyse⟩ := outcome_analyse_of_text answered
  refine ⟨asked, ?_⟩
  rw [outcome_classify, if_pos callable, hanalyse, unknown]

theorem outcome_classify_of_error {q : Inquiry} {candidate : Ref} {f : Fault}
    (callable : q.world.heap.callable candidate = true)
    (failed : (q.normalizer.request q.world.heap (q.tracker.source candidate)).result =
      .error f) : ∃ asked, outcome (classify candidate) q = (.error f, { q with asked }) := by
  refine ⟨q.asked ++
    (q.normalizer.request q.world.heap (q.tracker.source candidate)).asked, ?_⟩
  rw [outcome_classify, if_pos callable, outcome_analyse_of_error failed]

/-- The ways in which the classification of a candidate ends: what it answers and what it leaves
behind. -/
inductive Classified (q : Inquiry) (candidate : Ref) :
    Except Fault FeatureRecord × Inquiry → Prop where
  | uncallable (callable : q.world.heap.callable candidate = false) :
      Classified q candidate (.error (.callableExpected (q.world.heap.typeName candidate)), q)
  | textless {f : Fault} {asked : List Ref} (callable : q.world.heap.callable candidate = true)
      (failed : (q.normalizer.request q.world.heap (q.tracker.source candidate)).result =
        .error f) : Classified q candidate (.error f, { q with asked })
  | unscanned {t : SourceText} {f : Fault} {asked : List Ref}
      (callable : q.world.heap.callable candidate = true)
      (answered : (q.normalizer.request q.world.heap (q.tracker.source candidate)).result = .ok t)
      (unknown : q.classifier.known (q.tracker.source candidate) t = .error f) :
      Classified q candidate (.error f, ⟨q.world,
        (q.normalizer.request q.world.heap (q.tracker.source candidate)).normalizer,
        q.classifier, asked⟩)
  | studied {t : SourceText} {s : Segments} {asked : List Ref}
      {run : Except Fault FeatureRecord × Study}
      (callable : q.world.heap.callable candidate = true)
      (answered : (q.normalizer.request q.world.heap (q.tracker.source candidate)).result = .ok t)
      (known : q.classifier.known (q.tracker.source candidate) t = .ok s)
      (studied : outcome (do
        checked q.classifier.rules (← describe q.tracker candidate (q.tracker.source candidate)))
        (.begin q.world q.classifier.tracker (q.tracker.source candidate) s) = run) :
      Classified q candidate (run.1, ⟨run.2.world,
        (q.normalizer.request q.world.heap (q.tracker.source candidate)).normalizer,
        q.classifier.keep q.world.heap (q.tracker.source candidate) s, asked⟩)

theorem classified (q : Inquiry) (candidate : Ref) :
    Classified q candidate (outcome (classify candidate) q) := by
  cases callable : q.world.heap.callable candidate with
  | false =>
      rw [outcome_classify, callable, if_neg Bool.false_ne_true]
      exact .uncallable callable
  | true =>
      cases answered :
          (q.normalizer.request q.world.heap (q.tracker.source candidate)).result with
      | error f =>
          obtain ⟨asked, hrun⟩ := outcome_classify_of_error callable answered
          rw [hrun]
          exact .textless callable answered
      | ok t =>
          cases known : q.classifier.known (q.tracker.source candidate) t with
          | error f =>
              obtain ⟨asked, hrun⟩ := outcome_classify_of_unknown callable answered known
              rw [hrun]
              exact .unscanned callable answered known
          | ok s =>
              obtain ⟨asked, hrun⟩ := outcome_classify_of_segments callable answered known
              rw [hrun]
              exact .studied callable answered known rfl

/-- Looking at an object changes the heap only if the object can be referred to weakly. -/
theorem touchDict_eq_or_weaklyReferable (h : Heap) (r : Ref) :
    h.touchDict r = h ∨ h.weaklyReferable r = true := by
  cases hpartial : h.isPartial r with
  | false =>
      exact Or.inl (by simp [Heap.touchDict, hpartial])
  | true =>
      obtain ⟨p, hp⟩ := Heap.exists_shape_of_isPartial hpartial
      exact Or.inr (by rw [Heap.weaklyReferable, hp])

/-- What is found out about a source is found again once the source was looked at, and the look is all
that a classification by genuine attempts changes of the world. -/
theorem outcome_classify_of_genuine {q : Inquiry} {candidate : Ref} {t : SourceText}
    {s : Segments} (genuine : q.tracker.Genuine)
    (callable : q.world.heap.callable candidate = true)
    (answered : (q.normalizer.request q.world.heap (q.tracker.source candidate)).result = .ok t)
    (known : q.classifier.known (q.tracker.source candidate) t = .ok s) :
    let source := q.tracker.source candidate
    let study := Study.begin q.world q.classifier.tracker source s
    let find := do checked q.classifier.rules (← describe q.tracker candidate source)
    outcome find study.looked = outcome find study ∧
    ∃ asked, outcome (classify candidate) q = ((outcome find study).1,
      ⟨q.world.touched source, (q.normalizer.request q.world.heap source).normalizer,
        q.classifier.keep q.world.heap source s, asked⟩) := by
  obtain ⟨next, hfind, hkeeps⟩ := exists_study q.tracker candidate
    (q.tracker.source candidate) q.classifier.rules
  obtain ⟨hworld, hagain⟩ := Study.outcome_isConstructor_bind
    (s := .begin q.world q.classifier.tracker (q.tracker.source candidate) s) genuine rfl
    fun w => hkeeps _ (Study.keeps_settled_isConstructor w) (Study.keeps_settled_isClass w)
  obtain ⟨asked, hrun⟩ := outcome_classify_of_segments callable answered known
  rw [← hfind] at hworld hagain
  dsimp only at hrun
  rw [hworld] at hrun
  exact ⟨hagain, asked, hrun⟩

/-- The study of a source that was looked at finds out the same. -/
theorem outcome_classify_again_of_segments {q : Inquiry} {candidate : Ref} {t : SourceText}
    {s : Segments} (genuine : q.tracker.Genuine)
    (callable : q.world.heap.callable candidate = true)
    (answered : (q.normalizer.request q.world.heap (q.tracker.source candidate)).result = .ok t)
    (known : q.classifier.known (q.tracker.source candidate) t = .ok s) :
    (outcome (classify candidate) (outcome (classify candidate) q).2).1 =
      (outcome (classify candidate) q).1 := by
  obtain ⟨hagain, asked, hrun⟩ := outcome_classify_of_genuine genuine callable answered known
  have hgives := Normalizer.gives_of_request answered
    (touchDict_eq_or_weaklyReferable q.world.heap (q.tracker.source candidate))
  rw [hrun]
  obtain ⟨q', hq'⟩ : ∃ q', q' = (⟨q.world.touched (q.tracker.source candidate),
      (q.normalizer.request q.world.heap (q.tracker.source candidate)).normalizer,
      q.classifier.keep q.world.heap (q.tracker.source candidate) s, asked⟩ : Inquiry) := ⟨_, rfl⟩
  have htracker : q'.tracker = q.tracker := by
    rw [hq', Inquiry.tracker, Classifier.tracker_keep]
    rfl
  have hrules : q'.classifier.rules = q.classifier.rules := by
    rw [hq', Classifier.rules_keep]
  have hstudy : Study.begin q'.world q'.classifier.tracker (q.tracker.source candidate) s =
      (Study.begin q.world q.classifier.tracker (q.tracker.source candidate) s).looked := by
    rw [hq', Classifier.tracker_keep]
    rfl
  have hcallable : q'.world.heap.callable candidate = true := by
    rw [hq']
    exact (Heap.Grows.touchDict _ _).callable callable
  have hanswered : (q'.normalizer.request q'.world.heap (q'.tracker.source candidate)).result =
      .ok t := by
    rw [htracker, hq']
    exact hgives.result
  have hknown : q'.classifier.known (q'.tracker.source candidate) t = .ok s := by
    rw [htracker, hq']
    exact Classifier.known_keep known _
  obtain ⟨asked', hrun'⟩ := outcome_classify_of_segments hcallable hanswered hknown
  rw [← hq', hrun']
  dsimp only
  rw [htracker, hrules, hstudy, hagain]

/-- A callable that is classified once more comes to the same. -/
theorem outcome_classify_again (q : Inquiry) (candidate : Ref) (genuine : q.tracker.Genuine) :
    (outcome (classify candidate) (outcome (classify candidate) q).2).1 =
      (outcome (classify candidate) q).1 := by
  cases hcallable : q.world.heap.callable candidate with
  | false =>
      have hrun : outcome (classify candidate) q =
          (.error (.callableExpected (q.world.heap.typeName candidate)), q) := by
        rw [outcome_classify, hcallable, if_neg Bool.false_ne_true]
      rw [hrun]
      dsimp only
      rw [hrun]
  | true =>
      cases hresult : (q.normalizer.request q.world.heap (q.tracker.source candidate)).result with
      | error f =>
          obtain ⟨asked, hrun⟩ := outcome_classify_of_error hcallable hresult
          obtain ⟨asked', hrun'⟩ := outcome_classify_of_error (q := { q with asked })
            hcallable hresult
          rw [hrun]
          dsimp only
          rw [hrun']
      | ok t =>
          cases hknown : q.classifier.known (q.tracker.source candidate) t with
          | error f =>
              obtain ⟨asked, hrun⟩ := outcome_classify_of_unknown hcallable hresult hknown
              have hgives := Normalizer.gives_of_request hresult (Or.inl rfl)
              obtain ⟨asked', hrun'⟩ := outcome_classify_of_unknown
                (q := ⟨q.world, _, q.classifier, asked⟩) hcallable hgives.result hknown
              rw [hrun]
              dsimp only
              rw [hrun']
          | ok s =>
              exact outcome_classify_again_of_segments genuine hcallable hresult hknown

/-! ### What requests keep -/

/-- The world that an object is studied in is the present one. -/
theorem world_analyse (q : Inquiry) (r : Ref) :
    (outcome (analyse r) q).2.world = q.world ∧
    ∀ study, (outcome (analyse r) q).1 = .ok study → study.world = q.world := by
  cases hresult : (q.normalizer.request q.world.heap r).result with
  | error f =>
      rw [outcome_analyse_of_error hresult]
      exact ⟨rfl, nofun⟩
  | ok t =>
      obtain ⟨asked, hrun⟩ := outcome_analyse_of_text hresult
      rw [hrun]
      cases q.classifier.known r t with
      | error f =>
          exact ⟨rfl, nofun⟩
      | ok s =>
          refine ⟨rfl, ?_⟩
          rintro study ⟨⟩
          rfl

/-- A property that requests for texts keep, as probes do, and that does not depend on what a
classifier keeps. -/
structure KeptByRequests (P : Inquiry → Prop) : Prop where
  text : ∀ q r, P q → P (outcome (sourceText r) q).2
  classifier : ∀ (q : Inquiry) (c : Classifier), P q → P { q with classifier := c }
  probe : ∀ (q : Inquiry) (id : Nat) (p : Probe) (r : Ref), P q →
    P { q with world := (q.world.probe id p r).2 }

namespace KeptByRequests

variable {P : Inquiry → Prop} (kept : KeptByRequests P)

include kept

theorem segments (r : Ref) : Keeps P (segments r) := by
  intro q holds
  cases hcache : q.classifier.cache.get? r r with
  | some known =>
      rw [outcome_segments_of_kept hcache]
      exact holds
  | none =>
      have htext := kept.text q r holds
      rw [outcome_segments_of_missing hcache]
      generalize outcome (sourceText r) q = asked at htext ⊢
      obtain ⟨f | t, q'⟩ := asked
      · exact htext
      · dsimp only
        cases Segments.scan t.raw with
        | error f => exact htext
        | ok s => exact kept.classifier q' _ htext

theorem analyse (r : Ref) : Keeps P (analyse r) := by
  intro q holds
  have htext := kept.text q r holds
  rw [outcome_analyse]
  generalize outcome (sourceText r) q = asked at htext ⊢
  obtain ⟨f | t, q'⟩ := asked
  · exact htext
  · have hsegments := kept.segments r q' htext
    dsimp only
    generalize outcome (Inquiry.segments r) q' = found at hsegments ⊢
    obtain ⟨f | s, q''⟩ := found <;> exact hsegments

theorem classify (candidate : Ref) : Keeps P (classify candidate) := by
  intro q holds
  rw [outcome_classify]
  split
  · have hanalysed := kept.analyse (q.tracker.source candidate) q holds
    obtain ⟨hworld, hstudy⟩ := world_analyse q (q.tracker.source candidate)
    revert hanalysed hworld hstudy
    generalize outcome (Inquiry.analyse (q.tracker.source candidate)) q = analysed
    intro hanalysed hworld hstudy
    obtain ⟨f | study, q'⟩ := analysed
    · exact hanalysed
    · dsimp only
      rw [outcome_studying]
      obtain ⟨next, hfind, hkeeps⟩ := exists_study q.tracker candidate
        (q.tracker.source candidate) q.classifier.rules
      rw [hfind]
      have hprobes : Study.KeptByProbes fun w => P { q' with world := w } :=
        fun w id p r holds => kept.probe { q' with world := w } id p r holds
      have hconstructor := Study.keeps_isConstructor_of_probes hprobes
      refine hconstructor.bind (hkeeps _ hconstructor (Study.keeps_isClass_of_probes hprobes))
        study ?_
      have hsame : study.world = q'.world := (hstudy study rfl).trans hworld.symm
      show P { q' with world := study.world }
      rw [hsame]
      exact hanalysed
  · exact holds

end KeptByRequests

/-! ### Chains -/

/-- The last link of a chain is classified like the callable at its beginning: with the same error,
or with a record that differs in the target and in the facts about wraps only, which tell the kind of
the last wrap and the kinds of the earlier ones. Which of the two is classified first does not
matter. -/
theorem classify_chain {q : Inquiry} {f : Ref} {link : Link} {earlier : List Link}
    (chain : World.Chain q.classifier.tracker f q.world (link :: earlier))
    (standard : q.classifier.rules = Rule.standard) :
    let seen := fun record : FeatureRecord => { record with
      isProxy := link.kind == .proxy
      isBound := link.kind == .bound
      wasProxy := earlier.any fun l => l.kind == .proxy
      wasBound := earlier.any fun l => l.kind == .bound
      target := link.object }
    (outcome (classify link.object) q).1 = (outcome (classify f) q).1.map seen ∧
    (∀ record, (outcome (classify f) q).1 = .ok record → record.source = f) ∧
    (q.tracker.Genuine →
      (outcome (classify link.object) (outcome (classify f) q).2).1 =
        (outcome (classify f) q).1.map seen ∧
      (outcome (classify f) (outcome (classify link.object) q).2).1 =
        (outcome (classify f) q).1) := by
  intro seen
  have htraced := chain.traced
  have hown : q.tracker.source f = f := Tracker.source_of_not_knows htraced.unknown
  have hunwrapped : q.tracker.state f = .unwrapped := Tracker.state_of_not_knows htraced.unknown
  have hstate : q.tracker.state link.object = Link.state (link :: earlier) := htraced.state
  have hclassify : outcome (classify link.object) q =
      ((outcome (classify f) q).1.map seen, (outcome (classify f) q).2) := by
    have hseen := outcome_classify_seenAs q standard htraced.callable htraced.callableLast hown
      htraced.source (by rw [hunwrapped]; rfl) (by
        rw [Link.last, hstate]
        exact Link.state_exclusive (link :: earlier))
    rw [Link.last, hstate] at hseen
    exact hseen
  refine ⟨congrArg Prod.fst hclassify, fun record classified => ?_, fun genuine => ⟨?_, ?_⟩⟩
  · rw [source_of_classify classified, hown]
  · -- Both classifications leave the same behind.
    have hagain := outcome_classify_again q link.object genuine
    rw [hclassify] at hagain
    exact hagain
  · have hagain := outcome_classify_again q f genuine
    rw [hclassify]
    exact hagain

/-- The world with a class and a function in it, the last two objects. -/
def classAndFunction : World := World.initial.run [
  .create (.cls ⟨"m", "f", "f", "type", [Catalog.objectClass], false, false, false, none, false⟩) none,
  .create (.function (.ofSignature "g" "g" .plain Signature.anything (.echo "g"))) none]

/-- The class. -/
def someClass : Ref := World.initial.heap.size

/-- The function. -/
def someFunction : Ref := World.initial.heap.size + 1

/-- Arguments of the class are fixed. -/
def classFixed : World :=
  let p := classAndFunction.heap.fixing classAndFunction.partialClass someClass [] []
  (classAndFunction.add (.partialOf p)).report someClass classAndFunction.heap.size .bound

/-- The function is made to look like the object with fixed arguments. -/
def functionDisguised : World :=
  (classFixed.imitate classFixed.instrumented someFunction classAndFunction.heap.size
    Heap.usualNames [Heap.dictName]).1

theorem chain_functionDisguised :
    World.Chain World.mainTracker someClass functionDisguised
      [⟨someFunction, .proxy⟩, ⟨classAndFunction.heap.size, .bound⟩] := by
  have hstart : World.Chain World.mainTracker someClass classAndFunction [] :=
    .start _ (by decide +kernel) (by decide +kernel)
  have hbind : classAndFunction.bind classAndFunction.partialClass (some someClass) [] [] =
      .ok (classFixed, classAndFunction.heap.size) := by
    refine World.bind_eq_ok_iff.mpr ⟨someClass, rfl, rfl, by decide +kernel, by decide +kernel, ?_⟩
    rw [if_pos (by decide +kernel)]
    rfl
  have himitate : classFixed.imitate classFixed.instrumented someFunction
      classAndFunction.heap.size Heap.usualNames [Heap.dictName] =
        (functionDisguised, .ok someFunction) := Prod.ext rfl rfl
  exact .proxy (.bound hstart (by decide +kernel) hbind) (by decide +kernel) (by decide +kernel)
    (by decide +kernel) (by decide +kernel) (by decide +kernel) himitate

/-- The function is a constructor made by a class statement, as the class is. -/
theorem classify_chain_functionDisguised :
    let q := fresh functionDisguised (.listed [(someClass, .ok "class f: pass".toList)])
      World.mainTracker Rule.standard
    let record : FeatureRecord := ⟨true, true, false, false, false, false, false, false, false,
      false, false, someClass, someClass⟩
    (outcome (classify someClass) q).1.toOption = some record ∧
    (outcome (classify someFunction) q).1.toOption =
      some { record with isProxy := true, wasBound := true, target := someFunction } := by
  intro q record
  have hclass : (outcome (classify someClass) q).1.toOption = some record := by decide +kernel
  have hseen := (classify_chain (q := q) chain_functionDisguised rfl).1
  refine ⟨hclass, ?_⟩
  dsimp only at hseen
  rw [hseen]
  generalize (outcome (classify someClass) q).1 = found at hclass
  cases found with
  | error f => cases hclass
  | ok r =>
      cases hclass
      rfl

end Inquiry

end CallableKinds
