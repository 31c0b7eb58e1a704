import CallableKinds.Proofs.Coherence
import CallableKinds.Proofs.Stubs

/-!
# Records that contradict themselves

Which records the standard rules accept, and which callables have a record that they do not accept.
Of the callables without a source text only a class can have one: a class constructs objects, and
nothing keeps the flags of an attribute `__code__` of it from saying that its calls are awaited or give
one value after another. Such a class is refused whenever it is found to construct objects.
-/

namespace CallableKinds

/-! ### What the standard rules accept -/

namespace Rule

/-- All rules of a list can be checked, and none of them is broken if and only if a condition
holds. -/
def Judges (features : Features) (rules : List Rule) (condition : Prop) : Prop :=
  ∃ found, violations features rules = .ok found ∧ (found = [] ↔ condition)

namespace Judges

variable {features : Features} {rules : List Rule} {condition : Prop} {a b : String} {x y : Bool}

theorem nil : Judges features [] True := ⟨[], rfl, by simp⟩

theorem cons {rule : Rule} {first : Option String}
    (checked : rule.check features = .ok first) {holds : Prop} (means : first = none ↔ holds)
    (later : Judges features rules condition) :
    Judges features (rule :: rules) (holds ∧ condition) := by
  obtain ⟨found, hfound, hiff⟩ := later
  refine ⟨first.toList ++ found, ?_, ?_⟩
  · rw [violations, checked, hfound]
    rfl
  · rw [List.append_eq_nil_iff, Option.toList_eq_nil_iff, means, hiff]

theorem nand (hx : Keyed.find? a features = some (.plain (.bool x)))
    (hy : Keyed.find? b features = some (.plain (.bool y)))
    (later : Judges features rules condition) :
    Judges features (.nand a b :: rules) ((x = true → y = false) ∧ condition) := by
  have hchecked : (Rule.nand a b).check features =
      .ok (if x && y then some (bothMessage a b true) else none) := by
    simp only [check, read, hx, hy]
    cases x <;> cases y <;> rfl
  refine cons hchecked ?_ later
  cases x <;> cases y <;> simp

theorem implies (hx : Keyed.find? a features = some (.plain (.bool x)))
    (hy : Keyed.find? b features = some (.plain (.bool y)))
    (later : Judges features rules condition) :
    Judges features (.implies [(a, .bool true)] [(b, .bool true)] :: rules)
      ((x = true → y = true) ∧ condition) := by
  obtain ⟨message, hchecked⟩ : ∃ message,
      (Rule.implies [(a, .bool true)] [(b, .bool true)]).check features =
        .ok (if x && !y then some message else none) := by
    simp only [check, holds, mismatches, read, hx, hy]
    cases x with
    | false => exact ⟨"", rfl⟩
    | true =>
        cases y with
        | false => exact ⟨_, rfl⟩
        | true => exact ⟨"", rfl⟩
  refine cons hchecked ?_ later
  cases x <;> cases y <;> simp

end Judges

end Rule

namespace FeatureRecord

/-- A record that the standard rules accept. -/
structure Consistent (f : FeatureRecord) : Prop where
  arrow : f.isArrow = true →
    f.isConstructor = false ∧ f.isMemberMethod = false ∧ f.isClass = false
  async : f.isAsync = true → f.isConstructor = false ∧ f.isClass = false
  member : f.isMemberMethod = true → f.isConstructor = false ∧ f.isClass = false
  generator : f.isGenerator = true → f.isConstructor = false ∧ f.isClass = false
  wraps : f.isProxy = true → f.isBound = false
  classic : f.isClassic = true → f.isClass = false ∧ f.isConstructor = true
  cls : f.isClass = true → f.isConstructor = true

theorem judges_standard (h : Heap) (f : FeatureRecord) :
    Rule.Judges (f.features h) Rule.standard f.Consistent := by
  obtain ⟨found, hfound, hiff⟩ : Rule.Judges (f.features h) Rule.standard _ :=
    .nand rfl rfl <| .nand rfl rfl <| .nand rfl rfl <| .nand rfl rfl <| .nand rfl rfl <|
    .nand rfl rfl <| .nand rfl rfl <| .nand rfl rfl <| .nand rfl rfl <| .nand rfl rfl <|
    .nand rfl rfl <| .implies rfl rfl <| .implies rfl rfl .nil
  refine ⟨found, hfound, hiff.trans ⟨?_, ?_⟩⟩
  · rintro ⟨h₁, h₂, h₃, h₄, h₅, h₆, h₇, h₈, h₉, h₁₀, h₁₁, h₁₂, h₁₃, -⟩
    exact ⟨fun arrow => ⟨h₁ arrow, h₂ arrow, h₃ arrow⟩, fun async => ⟨h₄ async, h₅ async⟩,
      fun member => ⟨h₆ member, h₇ member⟩, fun generator => ⟨h₈ generator, h₉ generator⟩, h₁₀,
      fun classic => ⟨h₁₁ classic, h₁₃ classic⟩, h₁₂⟩
  · intro consistent
    exact ⟨fun arrow => (consistent.arrow arrow).1, fun arrow => (consistent.arrow arrow).2.1,
      fun arrow => (consistent.arrow arrow).2.2, fun async => (consistent.async async).1,
      fun async => (consistent.async async).2, fun member => (consistent.member member).1,
      fun member => (consistent.member member).2,
      fun generator => (consistent.generator generator).1,
      fun generator => (consistent.generator generator).2, consistent.wraps,
      fun classic => (consistent.classic classic).1, consistent.cls,
      fun classic => (consistent.classic classic).2, trivial⟩

end FeatureRecord

/-! ### Records of callables -/

theorem Fault.not_inconsistency {f : Fault} (found : (f.Undecided ∨ f.NoRoutine) ∨ f.NoSegments) :
    f.kind.isA "LogicInconsistencyError" = false := by
  obtain (hundecided | hroutine) | hsegments := found
  · cases hundecided; rfl
  · cases hroutine <;> rfl
  · cases hsegments <;> rfl

namespace Heap

variable {h : Heap} {r : Ref} {c : ClassInfo}

theorem touchDict_of_class (found : h.shape r = .cls c) : h.touchDict r = h := by
  rw [touchDict, isPartial, found]
  rfl

theorem routine_of_class (found : h.shape r = .cls c) : h.routine r = .ok ⟨r, none, true⟩ := by
  rw [routine, routineFrom]
  simp only [found]

theorem asFunction?_of_class (cls : h.isClass r = true) : h.asFunction? r = none := by
  unfold asFunction?
  dsimp only
  split
  · simp [cls]
  · rfl

/-- A class is no function, neither behind methods nor behind fixed arguments. -/
theorem flavor_of_class (found : h.shape r = .cls c) : h.flavor r = .plain := by
  have hholder : h.attributeHolder r = r := by
    rw [attributeHolder]
    cases h.size with
    | zero => rfl
    | succ n => simp only [attributeHolderFrom, found]
  have hunfix (n : Nat) : h.unfixFrom n r = r := by
    cases n with
    | zero => rfl
    | succ n => simp only [unfixFrom, found]
  rw [flavor, hholder, hunfix, asFunction?_of_class (isClass_iff.mpr ⟨c, found⟩)]

/-- Whether the flags of an attribute `__code__` of an object tell a flavor. -/
def codeFlagged (h : Heap) (r : Ref) (flavor : Flavor) : Bool :=
  (h.codeFlags? r).any fun flags => Study.hasFlag flags flavor.flag

end Heap

namespace Study

variable {s : Study} {t : Tracker} {target source : Ref} {record : FeatureRecord}

/-- What constructs no objects and was not made by a class statement has no contradictory record. -/
theorem consistent_of_not_constructs (none : s.constructs = .ok false)
    (noStatement : s.hasClassStatement = false)
    (wraps : (t.state target).isProxy = true → (t.state target).isBound = false)
    (found : s.record t target source = .ok record) : record.Consistent := by
  rw [record_of_constructs none, noStatement] at found
  obtain ⟨isAsync, -, found⟩ := ok_of_bind found
  obtain ⟨isMemberMethod, hmember, found⟩ := ok_of_bind found
  obtain ⟨isGenerator, -, found⟩ := ok_of_bind found
  cases found
  have harrow (arrow : s.looked.isArrow = true) : isMemberMethod = false := by
    rw [membership, arrow, Bool.true_or, if_pos rfl] at hmember
    cases hmember
    rfl
  refine ⟨fun arrow => ⟨rfl, harrow arrow, rfl⟩, fun _ => ⟨rfl, rfl⟩, fun _ => ⟨rfl, rfl⟩,
    fun _ => ⟨rfl, rfl⟩, wraps, fun classic => ?_, fun cls => ?_⟩
  · cases classic
  · cases cls

/-- The word that the stub of a class begins with. -/
def typeWord : List Char := ['t', 'y', 'p', 'e']

/-- The flags that the attributes of a class tell are all that is known of its calls. -/
theorem isAsync_of_class {c : ClassInfo} (cls : s.heap.shape s.subject = .cls c)
    (head : s.segments.head = typeWord) :
    s.isAsync = .ok (s.heap.codeFlagged s.subject .coroutine ||
      s.heap.codeFlagged s.subject .asyncGenerator) := by
  have hroutine : s.routine = .ok ⟨s.subject, none, true⟩ := Heap.routine_of_class cls
  have hplain : (s.heap.flavor s.subject).isAsync = false := by
    rw [Heap.flavor_of_class cls]
    rfl
  have hhead : beginsAsync s.segments.head = false := by
    rw [head]
    rfl
  rw [isAsync, hroutine]
  change (if (s.heap.flavor s.subject).isAsync then pure true else _) = _
  rw [hplain, if_neg Bool.false_ne_true, hhead, Heap.codeFlagged, Heap.codeFlagged]
  cases s.heap.codeFlags? s.subject <;> rfl

theorem isGenerator_of_class {c : ClassInfo} (cls : s.heap.shape s.subject = .cls c) :
    s.isGenerator = .ok (s.heap.codeFlagged s.subject .generator ||
      s.heap.codeFlagged s.subject .asyncGenerator) := by
  have hroutine : s.routine = .ok ⟨s.subject, none, true⟩ := Heap.routine_of_class cls
  have hplain : (s.heap.flavor s.subject).isGenerator = false := by
    rw [Heap.flavor_of_class cls]
    rfl
  rw [isGenerator, hroutine]
  change (if (s.heap.flavor s.subject).isGenerator then pure true else _) = _
  rw [hplain, if_neg Bool.false_ne_true, Heap.codeFlagged, Heap.codeFlagged]
  cases s.heap.codeFlags? s.subject <;> rfl

/-- Of a class with a stub that is found to construct objects the flags decide whether its record is
contradictory. -/
theorem consistent_iff_of_class (source : Ref) {c : ClassInfo}
    (cls : s.heap.shape s.subject = .cls c) (constructs : s.constructs = .ok true)
    (head : s.segments.head = typeWord)
    (wraps : (t.state target).isProxy = true → (t.state target).isBound = false) :
    ∃ record, s.record t target source = .ok record ∧ (record.Consistent ↔
      ∀ flavor, flavor ≠ .plain → s.heap.codeFlagged s.subject flavor = false) := by
  have hheap : s.looked.heap = s.heap := Heap.touchDict_of_class cls
  have hcls : s.looked.heap.shape s.looked.subject = .cls c := hheap ▸ cls
  have hstatement : s.hasClassStatement = false := by
    rw [hasClassStatement, hasClassHead, head]
    rfl
  have harrow : s.looked.isArrow = false := by
    rw [isArrow, show s.looked.segments = s.segments from rfl, head]
    rfl
  have hmember : s.looked.membership false = .ok false := by
    have hroutine : s.looked.routine = .ok ⟨s.subject, none, true⟩ := Heap.routine_of_class hcls
    rw [membership, harrow, Bool.false_or, if_neg Bool.false_ne_true, hroutine]
    rfl
  have hasync := isAsync_of_class hcls head
  have hgenerator := isGenerator_of_class hcls
  rw [hheap] at hasync hgenerator
  refine ⟨_, by rw [record_of_constructs constructs, hstatement, told, hasync, hmember, hgenerator]; rfl,
    ?_, ?_⟩
  · intro consistent flavor kind
    have hnot {b : Bool} (broken : b = true → true = false ∧ false = false) : b = false := by
      cases b with
      | false => rfl
      | true => cases (broken rfl).1
    obtain ⟨hcoroutine, hboth⟩ := Bool.or_eq_false_iff.mp (hnot consistent.async)
    obtain ⟨hgenerator, -⟩ := Bool.or_eq_false_iff.mp (hnot consistent.generator)
    cases flavor with
    | plain => exact absurd rfl kind
    | coroutine => exact hcoroutine
    | generator => exact hgenerator
    | asyncGenerator => exact hboth
  · intro unflagged
    have hawaited : (s.heap.codeFlagged s.subject .coroutine ||
        s.heap.codeFlagged s.subject .asyncGenerator) = false := by
      rw [unflagged .coroutine (by decide), unflagged .asyncGenerator (by decide)]
      rfl
    have hyields : (s.heap.codeFlagged s.subject .generator ||
        s.heap.codeFlagged s.subject .asyncGenerator) = false := by
      rw [unflagged .generator (by decide), unflagged .asyncGenerator (by decide)]
      rfl
    refine ⟨fun arrow => ?_, fun async => ?_, fun member => ?_, fun generator => ?_, wraps,
      fun _ => ⟨rfl, rfl⟩, fun cls => ?_⟩
    · cases harrow.symm.trans arrow
    · cases hawaited.symm.trans async
    · cases member
    · cases hyields.symm.trans generator
    · cases cls

/-- Only a class that is found to construct objects, and whose code flags tell something of its calls,
has a contradictory record. -/
theorem contradictory_iff (source : Ref)
    (head : s.subjectIsClass = true → s.segments.head = typeWord)
    (wraps : (t.state target).isProxy = true → (t.state target).isBound = false) :
    (∃ record, s.record t target source = .ok record ∧ ¬ record.Consistent) ↔
      s.subjectIsClass = true ∧ s.constructs = .ok true ∧
        ∃ flavor, flavor ≠ .plain ∧ s.heap.codeFlagged s.subject flavor = true := by
  have hstatement : s.hasClassStatement = false := by
    rw [hasClassStatement]
    cases hcls : s.subjectIsClass with
    | false => rw [Bool.and_false]
    | true =>
        rw [hasClassHead, head hcls]
        rfl
  cases hconstructs : s.constructs with
  | error f =>
      constructor
      · rintro ⟨record, hrecord, -⟩
        rw [Study.record, hconstructs] at hrecord
        cases hrecord
      · rintro ⟨-, ⟨⟩, -⟩
  | ok constructs =>
      cases constructs with
      | false =>
          constructor
          · rintro ⟨record, hrecord, hcontradictory⟩
            exact absurd (consistent_of_not_constructs hconstructs hstatement wraps hrecord)
              hcontradictory
          · rintro ⟨-, ⟨⟩, -⟩
      | true =>
          have hcls := subjectIsClass_of_constructs hconstructs
          obtain ⟨c, hc⟩ := Heap.isClass_iff.mp hcls
          obtain ⟨record, hrecord, hiff⟩ :=
            consistent_iff_of_class source hc hconstructs (head hcls) wraps
          constructor
          · rintro ⟨found, hfound, hcontradictory⟩
            cases hrecord.symm.trans hfound
            refine ⟨hcls, rfl, ?_⟩
            by_contra none
            apply hcontradictory
            apply hiff.mpr
            intro flavor kind
            exact Bool.eq_false_iff.mpr fun flagged => none ⟨flavor, kind, flagged⟩
          · rintro ⟨-, -, flavor, kind, flagged⟩
            refine ⟨record, hrecord, fun consistent => ?_⟩
            cases flagged.symm.trans (hiff.mp consistent flavor kind)

end Study

/-! ### Texts of classes -/

namespace Segments

/-- The head of the stub of a class is always the same. -/
theorem head_of_scan_classStub {name : String} {bases : List String} {s : Segments}
    (scanned : scan (Heap.classStub name bases).toList = .ok s) : s.head = Study.typeWord := by
  obtain ⟨rest, hrest⟩ : ∃ rest, classCall name.toList (Heap.tupleItems bases).toList =
      't' :: 'y' :: 'p' :: 'e' :: '(' :: rest := ⟨_, rfl⟩
  have hfront : front .initial (lex ('t' :: 'y' :: 'p' :: 'e' :: '(' :: rest)).spots =
      .paramList 4 none (lexFrom 0 5 (some '(') rest).spots := rfl
  rw [Heap.scan_classStub, hrest, scanDefinition] at scanned
  dsimp only at scanned
  rw [hfront] at scanned
  dsimp only at scanned
  split at scanned
  · cases scanned
    rfl
  · split at scanned <;> cases scanned

end Segments

@[simp] theorem SourceText.raw_ofRaw (raw : List Char) (native : Bool) :
    (SourceText.ofRaw raw native).raw = raw := rfl

/-- A text is that of a source, or has the head of a stub of a class. -/
def SourceText.ReadsAsClass (t : SourceText) : Prop :=
  t.native = true → ∀ s, Segments.scan t.raw = .ok s → s.head = Study.typeWord

namespace Normalizer

variable {n : Normalizer} {h h' : Heap} {r : Ref} {t : SourceText}

theorem readsAsClass_ofRoutine {a : Archive} {c : ClassInfo} (cls : h.shape r = .cls c)
    (made : ofRoutine h a r = .ok t) : t.ReadsAsClass := by
  rw [ofRoutine] at made
  split at made
  next source _ =>
      obtain ⟨d, -, made⟩ := ok_of_bind made
      obtain ⟨raw, -, made⟩ := ok_of_bind made
      cases made
      intro native
      cases native
  next f _ =>
      split at made
      · obtain ⟨stub, hstub, made⟩ := ok_of_bind made
        cases made
        rw [Heap.stub_of_class cls] at hstub
        cases hstub
        intro _ s scanned
        rw [SourceText.raw_ofRaw] at scanned
        exact Segments.head_of_scan_classStub scanned
      · cases made

/-- The texts that a normalizer keeps of classes read as such, and it keeps texts of objects of the
heap only. -/
def KnowsClasses (n : Normalizer) (h : Heap) : Prop :=
  ∀ r t, n.cache.get? r r = some t → r < h.size ∧ (h.isClass r = true → t.ReadsAsClass)

theorem readsAsClass_find {asked : List Ref} (archived : ∃ a, n.origin = .archive a)
    (cls : h.isClass r = true) (found : n.find h r = (.ok t, asked)) : t.ReadsAsClass := by
  obtain ⟨a, ha⟩ := archived
  obtain ⟨c, hc⟩ := Heap.isClass_iff.mp cls
  simp only [find, ha, Heap.routine_of_class hc, Prod.mk.injEq] at found
  exact readsAsClass_ofRoutine hc found.1

namespace KnowsClasses

theorem remember (knows : n.KnowsClasses h) (cls : h.isClass r = true → t.ReadsAsClass) :
    (n.remember h r t).KnowsClasses h := by
  intro r' t' kept
  rw [Normalizer.remember] at kept
  split at kept
  next hkeeps =>
      by_cases hr : r' = r
      · subst hr
        rw [WeakTable.get?_set_self, Option.some.injEq] at kept
        subst kept
        obtain ⟨-, hweak⟩ := Bool.and_eq_true_iff.mp hkeeps
        exact ⟨Heap.lt_size_of_weaklyReferable hweak, cls⟩
      · rw [WeakTable.get?_set_of_ne _ hr] at kept
        exact knows r' t' kept
  next => exact knows r' t' kept

/-- A request gives a text that reads as that of a class if it is one, and keeps no others. -/
theorem request (knows : n.KnowsClasses h) (archived : ∃ a, n.origin = .archive a) (r : Ref) :
    (n.request h r).normalizer.KnowsClasses h ∧
    ∀ t, (n.request h r).result = .ok t → h.isClass r = true → t.ReadsAsClass := by
  cases hresult : (n.request h r).result with
  | error f =>
      rw [request_error hresult]
      exact ⟨knows, nofun⟩
  | ok t =>
      obtain ⟨hkept, hsame⟩ | ⟨-, hfound, hafter⟩ := request_ok hresult
      · rw [hsame]
        refine ⟨knows, ?_⟩
        rintro _ ⟨⟩
        exact (knows r t hkept).2
      · have hclass (cls : h.isClass r = true) : t.ReadsAsClass :=
          readsAsClass_find archived cls (Prod.ext hfound rfl)
        rw [hafter]
        refine ⟨knows.remember hclass, ?_⟩
        rintro _ ⟨⟩
        exact hclass

/-- What is a class was one, as far as there was anything. -/
theorem grows (knows : n.KnowsClasses h) (grows : h.Grows h') : n.KnowsClasses h' := by
  intro r t kept
  obtain ⟨hr, hclass⟩ := knows r t kept
  refine ⟨Nat.lt_of_lt_of_le hr grows.size_le, fun cls => hclass ?_⟩
  obtain ⟨c, hc⟩ := Heap.isClass_iff.mp cls
  obtain ⟨f, f', -, hf, -⟩ | ⟨d, d', hd, -, -⟩ | hsame := grows.shape_cases hr
  · rw [hc] at hf
    cases hf
  · exact Heap.isClass_iff.mpr ⟨d, hd⟩
  · exact Heap.isClass_iff.mpr ⟨c, hsame.symm.trans hc⟩

end KnowsClasses

end Normalizer

/-! ### Histories of inquiries -/

/-- A request that asks for something. -/
def Request.Asks : Request → Prop
  | .move _ => False
  | _ => True

/-- The tables of a tracker tell of no object that it is a proxy and has fixed arguments at last. -/
theorem Tracker.Coherent.exclusive {t : Tracker} (coherent : t.Coherent) (r : Ref)
    (proxy : (t.state r).isProxy = true) : (t.state r).isBound = false := by
  rw [Tracker.state] at proxy ⊢
  cases found : t.states.get? r r with
  | none => rfl
  | some state =>
      have hmarked : (state.isProxy ^^ state.isBound) = true := coherent.marked_of_get? found
      rw [found] at proxy
      have hproxy : state.isProxy = true := proxy
      show state.isBound = false
      simpa [hproxy] using hmarked

theorem World.grows_probe (w : World) (id : Nat) (p : Probe) (r : Ref) :
    w.heap.Grows (w.probe id p r).2.heap := by
  cases p with
  | constructible => exact Heap.Grows.touchDict w.heap r
  | constructsOnly => exact Heap.Grows.refl w.heap

theorem World.Coherent.probe {w : World} (coherent : w.Coherent) (id : Nat) (p : Probe) (r : Ref) :
    (w.probe id p r).2.Coherent := by
  have htouched : World.Coherent { w with heap := p.touch w.heap r } := coherent.congr rfl
  exact htouched.withTracker id fun t ht => ht.intercept

namespace Inquiry

/-- What comes about from a fresh classifier and its normalizer as the world goes on and requests are
served. -/
inductive Reached : Inquiry → Prop where
  | fresh {events : List Event} (kinded : ∀ e ∈ events, e.Kinded) (a : Archive) (tracker : Nat)
      (rules : List Rule) : Reached (fresh (World.initial.run events) a tracker rules)
  | event {q : Inquiry} (reached : Reached q) {e : Event} (kinded : e.Kinded) :
      Reached { q with world := q.world.perform e }
  | request {q : Inquiry} (reached : Reached q) {r : Request} (asks : r.Asks) : Reached (q.after r)

/-- What a normalizer keeps is in order, and so is what the trackers keep. -/
structure InOrder (q : Inquiry) : Prop where
  texts : q.normalizer.Coherent
  classes : q.normalizer.KnowsClasses q.world.heap
  tables : q.world.Coherent

theorem keptByRequests_inOrder : KeptByRequests InOrder where
  text q r inOrder := by
    obtain ⟨htexts, -, -⟩ := inOrder.texts.request q.world.heap r
    exact ⟨htexts, (inOrder.classes.request inOrder.texts.archived r).1, inOrder.tables⟩
  classifier _ _ inOrder := ⟨inOrder.texts, inOrder.classes, inOrder.tables⟩
  probe q id p r inOrder :=
    ⟨inOrder.texts, inOrder.classes.grows (World.grows_probe ..), inOrder.tables.probe id p r⟩

theorem Reached.inOrder {q : Inquiry} (reached : q.Reached) : q.InOrder ∧ q.Coherent := by
  induction reached with
  | fresh kinded a tracker rules =>
      exact ⟨⟨Normalizer.coherent_ofArchive a, nofun, World.coherent_initial.run _ kinded⟩,
        coherent_fresh ..⟩
  | event reached kinded ih =>
      obtain ⟨inOrder, coherent⟩ := ih
      exact ⟨⟨inOrder.texts, inOrder.classes.grows (World.grows_perform _ _),
        inOrder.tables.perform _ kinded⟩, (coherent.move _).coherent⟩
  | @request q reached r asks ih =>
      obtain ⟨inOrder, coherent⟩ := ih
      refine ⟨?_, (coherent.after r).coherent⟩
      cases r with
      | text r => exact keptByRequests_inOrder.text _ r inOrder
      | segments r => exact keptByRequests_inOrder.segments r _ inOrder
      | record r => exact keptByRequests_inOrder.classify r _ inOrder
      | move world => cases asks

/-- The standard rules refuse the contradictory records that are found. -/
theorem study_inconsistent_iff (t : Tracker) (target source : Ref) {s : Study}
    (genuine : (s.world.tracker s.tracker).Genuine) (undecided : s.constructor = none)
    (undecided' : s.classStatement = none) :
    (∃ f, (outcome (do checked Rule.standard (← describe t target source)) s).1 = .error f ∧
      f.kind.isA "LogicInconsistencyError" = true) ↔
    ∃ record, s.record t target source = .ok record ∧ ¬ record.Consistent := by
  have hfails := s.failsOnly_record t target source
  rw [outcome_bind, outcome_describe_of_genuine t target source genuine undecided undecided']
  generalize s.record t target source = found at hfails
  cases found with
  | error f =>
      constructor
      · rintro ⟨_, ⟨⟩, hkind⟩
        rw [Fault.not_inconsistency (Or.inl (hfails f rfl))] at hkind
        cases hkind
      · rintro ⟨_, ⟨⟩, -⟩
  | ok record =>
      obtain ⟨violations, hviolations, hiff⟩ := record.judges_standard s.informed.heap
      dsimp only
      rw [outcome_checked, FeatureRecord.violations, hviolations]
      dsimp only
      cases violations with
      | nil =>
          constructor
          · rintro ⟨_, ⟨⟩, -⟩
          · rintro ⟨_, ⟨⟩, hcontradictory⟩
            exact absurd (hiff.mp rfl) hcontradictory
      | cons violation more =>
          constructor
          · intro _
            exact ⟨record, rfl, fun consistent => nomatch hiff.mpr consistent⟩
          · intro _
            exact ⟨_, rfl, rfl⟩

/-- The standard rules hand out the other records that are found. -/
theorem study_ok_iff (t : Tracker) (target source : Ref) {s : Study}
    (genuine : (s.world.tracker s.tracker).Genuine) (undecided : s.constructor = none)
    (undecided' : s.classStatement = none) {record : FeatureRecord} :
    (outcome (do checked Rule.standard (← describe t target source)) s).1 = .ok record ↔
      s.record t target source = .ok record ∧ record.Consistent := by
  rw [outcome_bind, outcome_describe_of_genuine t target source genuine undecided undecided']
  generalize s.record t target source = found
  cases found with
  | error f => exact ⟨nofun, fun h => nomatch h.1⟩
  | ok found =>
      obtain ⟨violations, hviolations, hiff⟩ := found.judges_standard s.informed.heap
      dsimp only
      rw [outcome_checked, FeatureRecord.violations, hviolations]
      dsimp only
      constructor
      · intro passed
        split at passed
        next accepted =>
            cases passed
            exact ⟨rfl, hiff.mp (List.isEmpty_iff.mp accepted)⟩
        next => cases passed
      · rintro ⟨⟨⟩, consistent⟩
        rw [hiff.mpr consistent]
        rfl

/-- Of the callables whose text is a stub only classes are refused as contradictory: those that are found to
construct objects and whose attribute `__code__` has a flag of a function that is awaited or gives one value
after another, as far as their stubs can be scanned. This holds in all that comes about from a fresh
classifier with the standard rules and a genuine tracker. -/
theorem classify_inconsistent_iff {q : Inquiry} {candidate : Ref} {t : SourceText}
    (reached : q.Reached) (genuine : q.tracker.Genuine)
    (standard : q.classifier.rules = Rule.standard)
    (callable : q.world.heap.callable candidate = true)
    (answered : (q.normalizer.request q.world.heap (q.tracker.source candidate)).result = .ok t)
    (stub : t.native = true) :
    (∃ f, (outcome (classify candidate) q).1 = .error f ∧
      f.kind.isA "LogicInconsistencyError" = true) ↔
    (∃ s, Segments.scan t.raw = .ok s) ∧
      q.world.heap.isClass (q.tracker.source candidate) = true ∧
      (q.world.probe q.classifier.tracker .constructible (q.tracker.source candidate)).1 =
        .ok .yes ∧
      ∃ flavor, flavor ≠ .plain ∧
        q.world.heap.codeFlagged (q.tracker.source candidate) flavor = true := by
  obtain ⟨inOrder, coherent⟩ := reached.inOrder
  have hwraps := (inOrder.tables q.classifier.tracker).exclusive candidate
  have hclass := (inOrder.classes.request inOrder.texts.archived _).2 t answered
  have hknown := coherent.known_eq answered
  cases hscan : Segments.scan t.raw with
  | error f =>
      obtain ⟨asked, hrun⟩ := outcome_classify_of_unknown callable answered (hknown.trans hscan)
      have hkind := Fault.not_inconsistency (Or.inr (Segments.failsOnly_scan _ f hscan))
      rw [hrun]
      constructor
      · rintro ⟨_, ⟨⟩, hother⟩
        cases hkind.symm.trans hother
      · rintro ⟨⟨_, ⟨⟩⟩, -⟩
  | ok s =>
      obtain ⟨asked, hrun⟩ := outcome_classify_of_segments callable answered (hknown.trans hscan)
      have hrefused := study_inconsistent_iff q.tracker candidate (q.tracker.source candidate)
        (s := .begin q.world q.classifier.tracker (q.tracker.source candidate) s) genuine rfl rfl
      have hcontradictory := Study.contradictory_iff
        (s := .begin q.world q.classifier.tracker (q.tracker.source candidate) s)
        (q.tracker.source candidate) (fun cls => hclass cls stub s hscan) hwraps
      rw [Study.constructs_begin_iff genuine] at hcontradictory
      rw [hrun, standard]
      exact hrefused.trans (hcontradictory.trans ⟨fun h => ⟨⟨s, rfl⟩, h⟩, fun h => h.2⟩)

/-- The world with a class whose attribute `__code__` has the flag of a coroutine. -/
def flaggedClass : World := World.initial.run [
  .create (.cls ⟨"m", "C", "C", "type", [Catalog.objectClass], false, false, false, none, false⟩)
    (some [("__code__", .code (.int 128))])]

/-- An inquiry into that world. -/
def flaggedInquiry : Inquiry := fresh flaggedClass .files World.mainTracker Rule.standard

theorem reached_flaggedInquiry : flaggedInquiry.Reached :=
  .fresh (by simp [Event.Kinded]) .files World.mainTracker Rule.standard

theorem callable_flaggedClass :
    flaggedInquiry.world.heap.callable World.initial.heap.size = true := by
  decide +kernel

/-- What is given as the text of the class is its stub. -/
theorem request_flaggedClass :
    (flaggedInquiry.normalizer.request flaggedInquiry.world.heap
      (flaggedInquiry.tracker.source World.initial.heap.size)).result =
        .ok (.ofRaw "type('C', (object,), \x7b...\x7d)".toList true) :=
  eq_ok_of_toOption (by decide +kernel)

/-- The class is refused. -/
theorem classify_inconsistent_iff_flaggedClass :
    ∃ f, (outcome (classify World.initial.heap.size) flaggedInquiry).1 = .error f ∧
      f.kind.isA "LogicInconsistencyError" = true := by
  refine (classify_inconsistent_iff reached_flaggedInquiry rfl rfl callable_flaggedClass
    request_flaggedClass rfl).mpr
    ⟨⟨⟨none, "type".toList, "('C', (object,), \x7b...\x7d)".toList, [], false⟩, ?_⟩, ?_, ?_,
      .coroutine, nofun, ?_⟩
  · exact eq_ok_of_toOption (by decide +kernel)
  · decide +kernel
  · exact eq_ok_of_toOption (by decide +kernel)
  · decide +kernel

/-- Not every callable with a stub has a record that the standard rules accept. -/
theorem not_classify_consistent :
    ¬ ∀ (q : Inquiry) (candidate : Ref) (t : SourceText), q.Reached → q.tracker.Genuine →
      q.classifier.rules = Rule.standard → q.world.heap.callable candidate = true →
      (q.normalizer.request q.world.heap (q.tracker.source candidate)).result = .ok t →
      t.native = true → ∀ f, (outcome (classify candidate) q).1 = .error f →
        f.kind.isA "LogicInconsistencyError" = false := by
  intro all
  have hnever := all flaggedInquiry World.initial.heap.size _ reached_flaggedInquiry rfl rfl
    callable_flaggedClass request_flaggedClass rfl
  have hrefused : (match (outcome (classify World.initial.heap.size) flaggedInquiry).1 with
      | .ok _ => false
      | .error f => f.kind.isA "LogicInconsistencyError") = true := by
    decide +kernel
  generalize (outcome (classify World.initial.heap.size) flaggedInquiry).1 = found
    at hrefused hnever
  cases found with
  | ok record => cases hrefused
  | error f => cases hrefused.symm.trans (hnever f rfl)

end Inquiry

end CallableKinds
