import CallableKinds.Proofs.Arrows
import CallableKinds.Proofs.Consistency
import CallableKinds.Proofs.Uses

/-!
# Renamed functions

The name of a function decides one thing only: whether an anonymous function is cut out of its source.
All else that a classification tells of a function itself is read off its flavor and its qualified
name. So two functions that differ in their names have the same kind if and only if their source is
scanned alike with and without cutting.
-/

namespace CallableKinds

/-! ### What is read off a function -/

namespace Heap

variable {h : Heap} {f g : Ref} {info : FunctionInfo}

theorem isClass_of_function (found : h.shape f = .function info) : h.isClass f = false := by
  rw [isClass, found]

theorem callable_of_function (found : h.shape f = .function info) : h.callable f = true := by
  rw [callable, found]

theorem touchDict_of_function (found : h.shape f = .function info) : h.touchDict f = h := by
  rw [touchDict, isPartial, found]
  rfl

theorem routine_of_function (found : h.shape f = .function info) :
    h.routine f = .ok ⟨f, none, false⟩ := by
  rw [routine, routineFrom]
  simp only [found]

theorem attributeHolder_of_function (found : h.shape f = .function info) :
    h.attributeHolder f = f := by
  rw [attributeHolder]
  cases h.size with
  | zero => rfl
  | succ n => simp only [attributeHolderFrom, found]

/-- A function has its own attributes besides those in its dictionary. -/
theorem attribute?_of_function (found : h.shape f = .function info) (name : String) :
    h.attribute? f name = (h.properAttribute? f name).or (Keyed.find? name (h.ownAttributes f)) := by
  rw [attribute?, attributeHolder_of_function found, directAttribute?, classOf?]
  simp only [found]
  cases h.properAttribute? f name with
  | some v => rfl
  | none => cases Keyed.find? name (h.ownAttributes f) <;> rfl

theorem name?_of_function (found : h.shape f = .function info) : h.name? f = some info.name := by
  rw [name?, attribute?_of_function found, properAttribute?, if_pos rfl, properName?, found]
  rfl

theorem qualname?_of_function (found : h.shape f = .function info) :
    h.qualname? f = some info.qualname := by
  rw [qualname?, attribute?_of_function found, properAttribute?, if_neg (by decide), if_pos rfl,
    properQualname?, found]
  rfl

/-- Besides its names a function has its parts, and what is in its dictionary. -/
theorem attribute?_of_part (found : h.shape f = .function info) {name : String}
    (other : name ≠ "__name__" ∧ name ≠ "__qualname__") :
    h.attribute? f name = (functionPart? info name).or (Keyed.find? name (h.ownAttributes f)) := by
  rw [attribute?_of_function found, properAttribute?, if_neg other.1, if_neg other.2]
  simp only [found]

theorem codeFlags?_of_function (found : h.shape f = .function info) :
    h.codeFlags? f = some info.flavor.flag := by
  rw [codeFlags?, attribute?_of_part found (by decide)]
  rfl

theorem wrapped?_of_function (found : h.shape f = .function info) :
    h.wrapped? f = Keyed.find? "__wrapped__" (h.ownAttributes f) :=
  attribute?_of_part found (by decide)

theorem statedSignature?_of_function (found : h.shape f = .function info) :
    h.statedSignature? f = Keyed.find? "__signature__" (h.ownAttributes f) :=
  attribute?_of_part found (by decide)

theorem boundWrapped?_of_function (found : h.shape f = .function info) :
    h.boundWrapped? f = none := by
  rw [boundWrapped?, classOf?]
  simp only [found, Option.bind_none, ite_self]

theorem endsWrapping_of_function (found : h.shape f = .function info) :
    h.endsWrapping f = (Keyed.find? "__signature__" (h.ownAttributes f)).isSome := by
  rw [endsWrapping, isMethod, statedSignature?_of_function found, boundWrapped?_of_function found]
  simp only [found, Option.isSome_none, Bool.or_false, Bool.false_or]

/-- A function has all that a function has. -/
theorem asFunction?_of_function (found : h.shape f = .function info) :
    h.asFunction? f = some (info.code, info.signature) := by
  have code : h.attribute? f "__code__" = some (.compiled info.code) := by
    rw [attribute?_of_part found (by decide)]
    rfl
  have defaults : (h.attribute? f "__defaults__").bind h.tupleSize? = some info.defaults := by
    rw [attribute?_of_part found (by decide)]
    change h.tupleSize? (if info.defaults = 0 then _ else _) = _
    split
    next none => rw [none]; rfl
    next => rfl
  have keywordDefaults :
      (h.attribute? f "__kwdefaults__").bind h.keys? = some info.keywordDefaults := by
    rw [attribute?_of_part found (by decide)]
    change h.keys? (.datum (if info.keywordDefaults = [] then _ else _)) = _
    split
    next none => rw [none]; rfl
    next =>
        change some ((info.keywordDefaults.map fun key => (key, Datum.none)).map (·.1)) = _
        rw [List.map_map]
        exact congrArg some (List.map_id _)
  have annotations : h.attribute? f "__annotations__" = some (.datum (.dict [])) := by
    rw [attribute?_of_part found (by decide)]
    rfl
  rw [asFunction?, code, defaults, keywordDefaults, annotations]
  simp only [callable_of_function found, isClass_of_function found, name?_of_function found]
  rfl

theorem flavor_of_function (found : h.shape f = .function info) : h.flavor f = info.flavor := by
  have hunfix (n : Nat) : h.unfixFrom n f = f := by
    cases n with
    | zero => rfl
    | succ n => simp only [unfixFrom, found]
  rw [flavor, attributeHolder_of_function found, hunfix,
    asFunction?_of_function found]
  rfl

/-- A function that wraps nothing looks in the end like itself. -/
theorem unwrap_of_function (found : h.shape f = .function info)
    (bare : Keyed.find? "__wrapped__" (h.ownAttributes f) = none) :
    h.unwrap h.endsWrapping f = some (.object f) := by
  rw [unwrap, unwrapFrom, wrapped?_of_function found, bare, ite_self]

/-- Functions with the same attributes look alike in the end, or each like itself. -/
theorem unwrap_of_functions {info' : FunctionInfo} (found : h.shape f = .function info)
    (found' : h.shape g = .function info') (attributes : h.ownAttributes f = h.ownAttributes g) :
    (h.unwrap h.endsWrapping f = some (.object f) ∧ h.unwrap h.endsWrapping g = some (.object g)) ∨
      h.unwrap h.endsWrapping f = h.unwrap h.endsWrapping g := by
  rw [unwrap, unwrap, unwrapFrom, unwrapFrom, wrapped?_of_function found,
    wrapped?_of_function found', isClass_of_function found, isClass_of_function found',
    endsWrapping_of_function found, endsWrapping_of_function found', attributes]
  cases (Keyed.find? "__signature__" (h.ownAttributes g)).isSome with
  | true => exact Or.inl ⟨rfl, rfl⟩
  | false =>
      cases Keyed.find? "__wrapped__" (h.ownAttributes g) with
      | none => exact Or.inl ⟨rfl, rfl⟩
      | some v => exact Or.inr (by cases v <;> rfl)

/-- The signature of a function that looks like itself: its own, unless it states something else. -/
theorem signatureOf_of_function (found : h.shape f = .function info) (read : SignatureReader) :
    h.signatureOf read f = .ok (match Keyed.find? "__signature__" (h.ownAttributes f) with
      | some v => if h.isNothing v then some info.signature else none
      | none => some info.signature) := by
  have plain : h.plainSignature read f = .ok (some info.signature) := by
    rw [plainSignature, asFunction?_of_function found]
    rfl
  rw [signatureOf, statedSignature?_of_function found, boundWrapped?_of_function found, plain]
  simp only [found]
  cases Keyed.find? "__signature__" (h.ownAttributes f) with
  | none => rfl
  | some v => exact (apply_ite Except.ok _ _ _).symm

/-- Functions with the same parameters and the same attributes have the same signature. -/
theorem signature?_of_functions {info' : FunctionInfo} (found : h.shape f = .function info)
    (found' : h.shape g = .function info') (params : info.signature = info'.signature)
    (attributes : h.ownAttributes f = h.ownAttributes g) : h.signature? f = h.signature? g := by
  rw [signature?, signature?, signatureFrom, signatureFrom, callable_of_function found,
    callable_of_function found']
  obtain ⟨own, own'⟩ | same := unwrap_of_functions found found' attributes
  · rw [own, own']
    simp only [signatureOf_of_function found, signatureOf_of_function found', attributes, params]
  · rw [same]

end Heap

/-! ### Kinds of functions -/

/-- What is told of a callable itself, apart from its wraps. -/
def FeatureRecord.kind (f : FeatureRecord) : List Bool :=
  [f.isConstructor, f.isClass, f.isClassic, f.isArrow, f.isAsync, f.isGenerator, f.isMemberMethod]

/-- What is told of a function itself, by whether its text is that of an anonymous function. -/
def FunctionInfo.kind (info : FunctionInfo) (isArrow : Bool) : List Bool :=
  [false, false, false, isArrow, info.flavor.isAsync, info.flavor.isGenerator,
    !isArrow && (Routine.ownerIn info.qualname).isSome]

theorem FunctionInfo.kind_injective (info : FunctionInfo) : Function.Injective info.kind := by
  intro a b same
  simp only [kind, List.cons.injEq] at same
  exact same.2.2.2.1

namespace Study

variable {s : Study} {info : FunctionInfo}

/-- The flags of the code of a function tell what its flavor tells. -/
theorem isAsync_of_function (found : s.heap.shape s.subject = .function info) :
    s.isAsync = .ok info.flavor.isAsync := by
  have hroutine : s.routine = .ok ⟨s.subject, none, false⟩ := Heap.routine_of_function found
  rw [isAsync, hroutine]
  change (if (s.heap.flavor s.subject).isAsync then pure true else _) = _
  rw [Heap.flavor_of_function found, Heap.codeFlags?_of_function found]
  cases info.flavor <;> rfl

theorem isGenerator_of_function (found : s.heap.shape s.subject = .function info) :
    s.isGenerator = .ok info.flavor.isGenerator := by
  have hroutine : s.routine = .ok ⟨s.subject, none, false⟩ := Heap.routine_of_function found
  rw [isGenerator, hroutine]
  change (if (s.heap.flavor s.subject).isGenerator then pure true else _) = _
  rw [Heap.flavor_of_function found, Heap.codeFlags?_of_function found]
  cases info.flavor <;> rfl

theorem membership_of_function (found : s.heap.shape s.subject = .function info) :
    s.membership false = .ok (!s.isArrow && (Routine.ownerIn info.qualname).isSome) := by
  have hroutine : s.routine = .ok ⟨s.subject, none, false⟩ := Heap.routine_of_function found
  rw [membership, hroutine]
  cases s.isArrow with
  | true => rfl
  | false =>
      change Except.ok (Routine.isMember s.heap ⟨s.subject, none, false⟩) = _
      rw [Routine.isMember, Routine.ownerName, Heap.qualname?_of_function found]
      rfl

/-- A function has a record, which tells its kind and is consistent. -/
theorem exists_record_of_function {t : Tracker} {target : Ref} (source : Ref)
    (found : s.heap.shape s.subject = .function info)
    (wraps : (t.state target).isProxy = true → (t.state target).isBound = false) :
    ∃ record, s.record t target source = .ok record ∧ record.kind = info.kind s.isArrow ∧
      record.Consistent := by
  have hheap : s.looked.heap = s.heap := Heap.touchDict_of_function found
  have hfound : s.looked.heap.shape s.looked.subject = .function info := hheap ▸ found
  have hclass : s.subjectIsClass = false := Heap.isClass_of_function found
  have hconstructs := constructs_of_not_class hclass
  have hstatement : s.hasClassStatement = false := by
    rw [hasClassStatement, hclass, Bool.and_false]
  obtain ⟨record, hrecord, hkind⟩ : ∃ record, s.record t target source = .ok record ∧
      record.kind = info.kind s.isArrow := by
    rw [record_of_constructs hconstructs, hstatement, told, isAsync_of_function hfound,
      membership_of_function hfound, isGenerator_of_function hfound]
    exact ⟨_, rfl, rfl⟩
  exact ⟨record, hrecord, hkind, consistent_of_not_constructs hconstructs hstatement wraps hrecord⟩

end Study

namespace Inquiry

/-- How a classification is seen from outside: what it tells of a callable itself, or the kind of the
error that it fails with. -/
def verdict (result : Except Fault FeatureRecord) : Except ErrorKind (List Bool) :=
  (result.map FeatureRecord.kind).mapError Fault.kind

/-- Whether a source is scanned as that of an anonymous function, or the kind of the error that this
fails with. -/
def appearance (isolate : List Char → Except Fault (List Char)) (source : List Char) :
    Except ErrorKind Bool :=
  ((do Segments.scan (← SourceText.ofSource isolate source).raw).map fun s : Segments =>
    Segments.beginsWith lambdaWord s.head).mapError Fault.kind

/-- A study of a function by genuine attempts finds its kind, and its record is handed out. -/
theorem verdict_study_of_function {t : Tracker} {target : Ref} (source : Ref) {s : Study}
    {info : FunctionInfo} (genuine : (s.world.tracker s.tracker).Genuine)
    (undecided : s.constructor = none) (undecided' : s.classStatement = none)
    (found : s.heap.shape s.subject = .function info)
    (wraps : (t.state target).isProxy = true → (t.state target).isBound = false) :
    verdict (outcome (do checked Rule.standard (← describe t target source)) s).1 =
      .ok (info.kind s.isArrow) := by
  obtain ⟨record, hrecord, hkind, hconsistent⟩ := Study.exists_record_of_function source found wraps
  obtain ⟨violations, hviolations, hnone⟩ := record.judges_standard s.informed.heap
  rw [outcome_bind, outcome_describe_of_genuine t target source genuine undecided undecided', hrecord]
  dsimp only
  rw [outcome_checked, FeatureRecord.violations, hviolations, hnone.mpr hconsistent]
  change Except.ok record.kind = _
  rw [hkind]

end Inquiry

/-- The text of a function whose source is listed is made from the source. -/
theorem Normalizer.anew_of_function {h : Heap} {f : Ref} {info : FunctionInfo}
    {sources : Keyed Ref (Except Report (List Char))} {source : List Char}
    (found : h.shape f = .function info) (listed : Keyed.find? f sources = some (.ok source)) :
    anew (.listed sources) h f = SourceText.ofSource (h.isolate f) source := by
  rw [anew, find]
  dsimp only [ofOrigin]
  rw [Heap.routine_of_function found]
  dsimp only
  rw [ofRoutine, Archive.lookup, listed]

namespace Inquiry

variable {q : Inquiry} {sources : Keyed Ref (Except Report (List Char))} {source : List Char}
  {f g : Ref} {info : FunctionInfo} {name : String}

/-- The verdict on a function that no wrap made is what its text looks like. -/
theorem Faithful.verdict_of_function (faithful : q.Faithful (.listed sources))
    (genuine : q.tracker.Genuine) (standard : q.classifier.rules = Rule.standard)
    (unknown : ¬ q.tracker.Knows f) (found : q.world.heap.shape f = .function info)
    (listed : Keyed.find? f sources = some (.ok source)) :
    verdict (outcome (Inquiry.classify f) q).1 =
      (appearance (q.world.heap.isolate f) source).map info.kind := by
  rw [(faithful.classify f).1, anew_of_callable _ (Heap.callable_of_function found), standard,
    Tracker.source_of_not_knows unknown, Normalizer.anew_of_function found listed, appearance]
  cases SourceText.ofSource (q.world.heap.isolate f) source with
  | error fault => rfl
  | ok t =>
      change verdict (Segments.scan t.raw >>= _) =
        (((Segments.scan t.raw).map _).mapError Fault.kind).map info.kind
      cases Segments.scan t.raw with
      | error fault => rfl
      | ok s =>
          refine verdict_study_of_function f genuine rfl rfl found ?_
          rw [Tracker.state_of_not_knows unknown]
          nofun

/-- The name of a function decides whether an anonymous function is cut out of its source. -/
theorem appearance_isolate {h : Heap} (found : h.shape f = .function info) (source : List Char) :
    appearance (h.isolate f) source =
      if info.name = Heap.lambdaName then
        appearance (fun definition => do isolateLambda definition (← h.parameterNames? f)) source
      else appearance .ok source := by
  have hisolate : h.isolate f = fun definition =>
      if info.name = Heap.lambdaName then do isolateLambda definition (← h.parameterNames? f)
      else .ok definition := by
    funext definition
    rw [Heap.isolate, Heap.name?_of_function found]
    simp only [Option.some.injEq]
  rw [hisolate]
  split <;> rfl

/-- Two functions that no wrap made differ in their names only, and they have one source. -/
structure Renamed (q : Inquiry) (sources : Keyed Ref (Except Report (List Char)))
    (source : List Char) (f g : Ref) (info : FunctionInfo) (name : String) : Prop where
  unknown : ¬ q.tracker.Knows f
  unknown' : ¬ q.tracker.Knows g
  shape : q.world.heap.shape f = .function info
  shape' : q.world.heap.shape g = .function { info with name }
  attributes : q.world.heap.ownAttributes f = q.world.heap.ownAttributes g
  listed : Keyed.find? f sources = some (.ok source)
  listed' : Keyed.find? g sources = some (.ok source)

theorem Renamed.verdict_iff (renamed : q.Renamed sources source f g info name)
    (faithful : q.Faithful (.listed sources)) (genuine : q.tracker.Genuine)
    (standard : q.classifier.rules = Rule.standard) :
    verdict (outcome (classify f) q).1 = verdict (outcome (classify g) q).1 ↔
      ((info.name = Heap.lambdaName ↔ name = Heap.lambdaName) ∨
        appearance .ok source = appearance
          (fun definition => do isolateLambda definition (← q.world.heap.parameterNames? f))
          source) := by
  have hnames : q.world.heap.parameterNames? g = q.world.heap.parameterNames? f := by
    rw [Heap.parameterNames?, Heap.parameterNames?, Heap.signature?_of_functions renamed.shape
      renamed.shape' rfl renamed.attributes]
  have hkind : FunctionInfo.kind { info with name } = info.kind := rfl
  rw [faithful.verdict_of_function genuine standard renamed.unknown renamed.shape renamed.listed,
    faithful.verdict_of_function genuine standard renamed.unknown' renamed.shape' renamed.listed',
    hkind, (map_injective info.kind_injective).eq_iff, appearance_isolate renamed.shape,
    appearance_isolate renamed.shape', hnames]
  by_cases hf : info.name = Heap.lambdaName <;> by_cases hg : name = Heap.lambdaName <;>
    simp [hf, hg, eq_comm]

/-! ### Cutting and not cutting -/

variable {d : Decorated} {names : Except Fault (Option (List (List Char)))}
  {isolate isolate' : List Char → Except Fault (List Char)} {isArrow : Bool}

/-- What a source looks like is told by what is taken from the definition in it. -/
theorem appearance_congr (split : Decorated.split (dedent source) = .ok d)
    (same : isolate d.definition = isolate' d.definition) :
    appearance isolate source = appearance isolate' source := by
  have htext : SourceText.ofSource isolate source = SourceText.ofSource isolate' source := by
    rw [SourceText.ofSource, SourceText.ofSource, split]
    change (isolate d.definition >>= _) = (isolate' d.definition >>= _)
    rw [same]
  rw [appearance, appearance, htext]

/-- It looks like an anonymous function if what is taken begins with the word of one. -/
theorem exists_of_appearance_eq_ok (split : Decorated.split (dedent source) = .ok d)
    (looks : appearance isolate source = .ok isArrow) :
    ∃ raw, isolate d.definition = .ok raw ∧
      isArrow = Segments.beginsWith lambdaWord (trim raw) := by
  obtain ⟨s, hs, rfl⟩ := exists_of_map_eq_ok (ok_of_mapError looks)
  obtain ⟨t, made, scanned⟩ := ok_of_bind hs
  obtain ⟨d', split', made⟩ := ok_of_bind made
  obtain ⟨raw, isolated, ⟨⟩⟩ := ok_of_bind made
  obtain rfl : d = d' := Except.ok.inj (split.symm.trans split')
  refine ⟨raw, isolated, ?_⟩
  rw [Segments.beginsWith_head_of_scan scanned, SourceText.raw_ofRaw, trim_trim]

/-- Nothing is cut out of a definition without anonymous functions. -/
theorem appearance_of_no_lambda (split : Decorated.split (dedent source) = .ok d)
    (none : lambdaStarts (lex d.definition).spots = [])
    (complete : (lex d.definition).unclosed = .none) {known : Option (List (List Char))}
    (named : names = .ok known) :
    appearance .ok source =
      appearance (fun definition => do isolateLambda definition (← names)) source := by
  refine appearance_congr split ?_
  rw [named]
  exact (isolateLambda_of_lambdaStarts_eq_nil complete none known).symm

/-- An anonymous function that is cut out of a definition is scanned as one, and so is the whole only if
it begins with one. -/
theorem appearance_of_lambda (split : Decorated.split (dedent source) = .ok d)
    (some : lambdaStarts (lex d.definition).spots ≠ [])
    (looks : appearance (fun definition => do isolateLambda definition (← names)) source =
      .ok isArrow) :
    appearance .ok source =
        appearance (fun definition => do isolateLambda definition (← names)) source ↔
      Segments.beginsWith lambdaWord (trim d.definition) = true ∧
        ∃ isArrow, appearance .ok source = .ok isArrow := by
  have harrow : isArrow = true := by
    obtain ⟨raw, isolated, rfl⟩ := exists_of_appearance_eq_ok split looks
    obtain ⟨known, -, isolated⟩ := ok_of_bind isolated
    exact beginsWith_of_isolateLambda some isolated
  rw [looks, harrow]
  constructor
  · intro whole
    obtain ⟨raw, ⟨⟩, hraw⟩ := exists_of_appearance_eq_ok split whole
    exact ⟨hraw.symm, true, whole⟩
  · rintro ⟨begins, isArrow, whole⟩
    obtain ⟨raw, ⟨⟩, hraw⟩ := exists_of_appearance_eq_ok split whole
    rw [whole, hraw, begins]

/-- Renaming changes the verdict on a function only by the word for the name of anonymous functions,
and only if its source is not scanned alike with and without cutting an anonymous function out. Nothing
is cut out of a complete definition without anonymous functions. Where one is cut out and can be
scanned, the source is scanned alike if and only if the definition begins with an anonymous function
and can be scanned as it is. So an anonymous function in a statement that begins otherwise loses its
kind with its name. -/
theorem classify_renamed_iff (events : List Event) (id : Nat) (uses : List Use) :
    let q := (fresh (World.initial.run events) (.listed sources) id Rule.standard).useAll uses
    let whole := appearance .ok source
    let isolated := appearance
      (fun definition => do isolateLambda definition (← q.world.heap.parameterNames? f)) source
    q.tracker.Genuine → q.Renamed sources source f g info name →
    (verdict (outcome (classify f) q).1 = verdict (outcome (classify g) q).1 ↔
      ((info.name = Heap.lambdaName ↔ name = Heap.lambdaName) ∨ whole = isolated)) ∧
    ∀ d, Decorated.split (dedent source) = .ok d →
      let starts := lambdaStarts (lex d.definition).spots
      (∀ names, starts = [] → (lex d.definition).unclosed = none →
        q.world.heap.parameterNames? f = .ok names → whole = isolated) ∧
      (∀ isArrow, starts ≠ [] → isolated = .ok isArrow →
        (whole = isolated ↔ Segments.beginsWith lambdaWord (trim d.definition) = true ∧
          ∃ isArrow, whole = .ok isArrow)) := by
  intro q whole isolated genuine renamed
  have serves : q.Serves (World.initial.run events) (.listed sources) id Rule.standard :=
    (Serves.fresh (World.sound_run events) _ id Rule.standard).useAll uses
  refine ⟨renamed.verdict_iff serves.faithful genuine serves.rules, fun d split => ⟨?_, ?_⟩⟩
  · intro names none complete named
    exact appearance_of_no_lambda split none complete named
  · intro isArrow some looks
    exact appearance_of_lambda split some looks

/-- An anonymous function and the same function under another name are made. -/
def namesakes : List Event :=
  [.create (.function (.ofSignature Heap.lambdaName "f" .plain [] (.echo "f"))) none,
    .create (.function (.ofSignature "f" "f" .plain [] (.echo "f"))) none]

/-- The anonymous function. -/
def namelessFunction : Ref := Heap.initial.size

/-- The one with the other name. -/
def renamedFunction : Ref := namelessFunction + 1

/-- One source for both functions. -/
def sharedSource (source : String) : Keyed Ref (Except Report (List Char)) :=
  [(namelessFunction, .ok source.toList), (renamedFunction, .ok source.toList)]

/-- A classifier of these functions that nothing was asked of yet. -/
def namer (source : String) : Inquiry :=
  fresh (World.initial.run namesakes) (.listed (sharedSource source)) World.mainTracker Rule.standard

theorem renamed_namer (source : String) :
    (namer source).Renamed (sharedSource source) source.toList namelessFunction renamedFunction
      (.ofSignature Heap.lambdaName "f" .plain [] (.echo "f")) "f" where
  unknown := by
    have unknown : ¬ ((World.initial.run namesakes).tracker World.mainTracker).Knows
        namelessFunction := by decide +kernel
    exact unknown
  unknown' := by
    have unknown : ¬ ((World.initial.run namesakes).tracker World.mainTracker).Knows
        renamedFunction := by decide +kernel
    exact unknown
  shape := rfl
  shape' := rfl
  attributes := rfl
  listed := rfl
  listed' := rfl

/-- An anonymous function that is all of its source keeps its kind under another name. -/
theorem classify_renamed_iff_bare :
    let q := namer "lambda: 0"
    q.tracker.Genuine ∧
      verdict (outcome (classify namelessFunction) q).1 =
        verdict (outcome (classify renamedFunction) q).1 ∧
      (verdict (outcome (classify renamedFunction) q).1).toOption =
        some [false, false, false, true, false, false, false] := by
  intro q
  have genuine : q.tracker.Genuine := rfl
  obtain ⟨same, told⟩ := classify_renamed_iff namesakes World.mainTracker []
    genuine (renamed_namer "lambda: 0")
  have split : Decorated.split (dedent "lambda: 0".toList) = .ok ⟨[], "lambda: 0".toList⟩ :=
    eq_ok_of_toOption (by decide +kernel)
  have whole : appearance .ok "lambda: 0".toList = .ok true := eq_ok_of_toOption (by decide +kernel)
  have alike := ((told _ split).2 true (by decide +kernel)
    (eq_ok_of_toOption (by decide +kernel))).mpr ⟨by decide +kernel, true, whole⟩
  exact ⟨genuine, same.mpr (.inr alike), by decide +kernel⟩

/-- The kind of an anonymous function in an assignment is lost with its name. -/
theorem not_classify_renamed :
    ¬ ∀ (events : List Event) (id : Nat) (uses : List Use)
        (sources : Keyed Ref (Except Report (List Char))) (source : List Char) (f g : Ref)
        (info : FunctionInfo) (name : String),
      let q := (fresh (World.initial.run events) (.listed sources) id Rule.standard).useAll uses
      q.tracker.Genuine → q.Renamed sources source f g info name →
        verdict (outcome (classify f) q).1 = verdict (outcome (classify g) q).1 := by
  intro same
  have hsame := same namesakes World.mainTracker [] _ _ _ _ _ _ rfl (renamed_namer "f = lambda: 0")
  have hnameless : (verdict (outcome (classify namelessFunction) (namer "f = lambda: 0")).1).toOption =
      some [false, false, false, true, false, false, false] := by
    decide +kernel
  have hrenamed : (verdict (outcome (classify renamedFunction) (namer "f = lambda: 0")).1).toOption =
      none := by
    decide +kernel
  exact nomatch hnameless.symm.trans ((congrArg Except.toOption hsame).trans hrenamed)

end Inquiry

end CallableKinds
