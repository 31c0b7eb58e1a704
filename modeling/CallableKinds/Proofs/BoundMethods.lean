import CallableKinds.Proofs.Calls

/-!
# Methods of callables

A method is called as the callable that it binds. What is told of its calls is read off that callable
itself, one step behind the method, while of the callable it is read off its routine. The two readings
agree for functions, builtins and methods. They may differ for an instance, whose own attributes are read
instead of the `__call__` that runs.
-/

namespace CallableKinds

namespace Heap

variable {h : Heap} {c e m o : Ref} {n : Nat}

/-! ### Nested methods -/

/-- The callable that a method binds. -/
def bound? (h : Heap) (r : Ref) : Option Ref :=
  match h.shape r with
  | .method func _ => some func
  | _ => none

theorem bound?_of_method (method : h.shape m = .method c o) : h.bound? m = some c := by
  rw [bound?, method]

theorem exists_method_of_bound? {r s : Ref} (binds : h.bound? r = some s) :
    ∃ receiver, h.shape r = .method s receiver := by
  rw [bound?] at binds
  split at binds
  next func receiver hshape =>
      cases binds
      exact ⟨receiver, hshape⟩
  next => cases binds

theorem bound?_lt {r s : Ref} (binds : h.bound? r = some s) : r < h.size := by
  obtain ⟨receiver, method⟩ := exists_method_of_bound? binds
  exact lt_size_of_shape (by rw [method]; exact nofun)

theorem traces_attributeHolderFrom (h : Heap) : Traces h.bound? h.attributeHolderFrom := by
  intro r s binds fuel
  obtain ⟨receiver, method⟩ := exists_method_of_bound? binds
  rw [attributeHolderFrom, method]

/-- The attributes of methods are those of the callable behind all of them. -/
theorem attributeHolder_of_endsAfter (nested : EndsAfter h.bound? n c e) :
    h.attributeHolder c = e := by
  have hle := nested.le_size fun _ _ => bound?_lt
  have hlast (fuel : Nat) : h.attributeHolderFrom fuel e = e := by
    cases fuel with
    | zero => rfl
    | succ fuel =>
        rw [attributeHolderFrom]
        split
        next func receiver method => cases nested.last.symm.trans (bound?_of_method method)
        next => rfl
  have hfuel : h.size = h.size - n + n := by omega
  rw [attributeHolder, hfuel, h.traces_attributeHolderFrom.run_add nested, hlast]

/-- Methods read like the callable behind all of them. -/
theorem flavor_of_endsAfter (nested : EndsAfter h.bound? n c e) : h.flavor c = h.flavor e := by
  rw [flavor, flavor, attributeHolder_of_endsAfter nested,
    attributeHolder_of_endsAfter (.here nested.last)]

theorem codeFlags?_of_endsAfter (nested : EndsAfter h.bound? n c e) :
    h.codeFlags? c = h.codeFlags? e := by
  rw [codeFlags?, codeFlags?, attribute?, attribute?, attributeHolder_of_endsAfter nested,
    attributeHolder_of_endsAfter (.here nested.last)]

theorem awaits_of_endsAfter (nested : EndsAfter h.bound? n c e) : h.awaits c = h.awaits e := by
  rw [awaits, awaits, codeFlagged, codeFlagged, codeFlagged, codeFlagged,
    flavor_of_endsAfter nested, codeFlags?_of_endsAfter nested]

theorem yields_of_endsAfter (nested : EndsAfter h.bound? n c e) : h.yields c = h.yields e := by
  rw [yields, yields, codeFlagged, codeFlagged, codeFlagged, codeFlagged,
    flavor_of_endsAfter nested, codeFlags?_of_endsAfter nested]

theorem routine_of_method (method : h.shape m = .method c o) :
    h.routine m = .ok ⟨c, some o, false⟩ := by
  rw [routine, routineFrom]
  simp only [method]

theorem routine_of_builtin {b : BuiltinInfo} (builtin : h.shape c = .builtin b) :
    h.routine c = .ok ⟨b.wrapped.getD c, b.receiver, false⟩ := by
  rw [routine, routineFrom]
  simp only [builtin]

end Heap

/-! ### Heads of stubs -/

namespace Segments

theorem head_of_scanDefinition {text : List Char} {s : Segments} (scanned : scanDefinition text = .ok s) :
    ∃ n, s.head = collapse (text.take n) := by
  rw [scanDefinition] at scanned
  dsimp only at scanned
  split at scanned
  next start symbol rest _ =>
      split at scanned
      next stop _ =>
          cases scanned
          exact ⟨start, rfl⟩
      next => split at scanned <;> cases scanned
  next pos symbol _ =>
      split at scanned
      next =>
          cases scanned
          exact ⟨pos, rfl⟩
      next => cases scanned
  next => split at scanned <;> cases scanned

theorem head_of_scanLambda {text : List Char} {s : Segments} (scanned : scanLambda text = .ok s) :
    ∃ n, s.head = collapse (text.take n) := by
  rw [scanLambda] at scanned
  dsimp only at scanned
  split at scanned
  next colon _ =>
      cases scanned
      exact ⟨_, rfl⟩
  next => split at scanned <;> cases scanned

/-- A text that begins with another letter has no head of an asynchronous definition. -/
theorem beginsAsync_collapse_take {c : Char} (solid : isBlank c = false) (other : c ≠ 'a')
    (rest : List Char) (n : Nat) : Study.beginsAsync (collapse ((c :: rest).take n)) = false := by
  cases n with
  | zero => rfl
  | succ n =>
      rw [List.take_succ_cons, collapse_cons_of_not_blank _ solid, Study.beginsAsync,
        isPrefixOf_of_ne other]
      rfl

theorem beginsAsync_of_scanDefinition {c : Char} (solid : isBlank c = false) (other : c ≠ 'a')
    {rest : List Char} {s : Segments} (scanned : scanDefinition (c :: rest) = .ok s) :
    Study.beginsAsync s.head = false := by
  obtain ⟨n, hhead⟩ := head_of_scanDefinition scanned
  rw [hhead]
  exact beginsAsync_collapse_take solid other rest n

theorem beginsAsync_of_scanLambda {c : Char} (solid : isBlank c = false) (other : c ≠ 'a')
    {rest : List Char} {s : Segments} (scanned : scanLambda (c :: rest) = .ok s) :
    Study.beginsAsync s.head = false := by
  obtain ⟨n, hhead⟩ := head_of_scanLambda scanned
  rw [hhead]
  exact beginsAsync_collapse_take solid other rest n

end Segments

namespace Heap

open Segments

variable {h : Heap} {r c e m o : Ref} {n : Nat}

/-- Only the stub of what is awaited reads as an asynchronous definition. -/
theorem isAsync_of_stub {stub : String} {s : Segments} (stubbed : h.stub r = .ok stub)
    (scanned : scan stub.toList = .ok s) (async : Study.beginsAsync s.head = true) :
    (h.flavor r).isAsync = true := by
  obtain ⟨signature, rfl, -⟩ := exists_stubWith stubbed
  rw [stubWith] at scanned
  split at scanned
  next =>
      rw [scan_classStub] at scanned
      cases (beginsAsync_of_scanDefinition (by decide) (by decide) scanned).symm.trans async
  next =>
      split at scanned
      next =>
          rw [scan_lambdaStub] at scanned
          cases (beginsAsync_of_scanLambda (by decide) (by decide) scanned).symm.trans async
      next =>
          rw [scan_routineStub] at scanned
          cases hasync : (h.flavor r).isAsync with
          | true => rfl
          | false =>
              rw [hasync] at scanned
              cases (beginsAsync_of_scanDefinition (by decide) (by decide) scanned).symm.trans async

/-! ### What is told of the calls -/

/-- Whether the text of a routine has the head of an asynchronous definition. -/
def textAwaits (h : Heap) (a : Archive) (r : Ref) : Bool :=
  match Normalizer.ofRoutine h a r with
  | .ok t =>
    match scan t.raw with
    | .ok s => Study.beginsAsync s.head
    | .error _ => false
  | .error _ => false

/-- Whether the calls of a routine are awaited, and whether they give one value after another. The text is
read only where no flags are known. -/
def told (h : Heap) (a : Archive) (r : Ref) : Bool × Bool :=
  (h.awaits r || ((h.codeFlags? r).isNone && h.textAwaits a r), h.yields r)

/-- No source of a routine is known. -/
def Sourceless (h : Heap) (a : Archive) (r : Ref) : Prop := ∀ source, a.lookup h r ≠ .ok source

variable {a : Archive}

/-- A stub does not tell anything that the routine does not. -/
theorem awaits_of_textAwaits (sourceless : h.Sourceless a r) (reads : h.textAwaits a r = true) :
    h.awaits r = true := by
  rw [textAwaits] at reads
  split at reads
  next t made =>
      split at reads
      next s scanned =>
          rw [Normalizer.ofRoutine] at made
          split at made
          next source found => exact absurd found (sourceless source)
          next =>
              split at made
              next =>
                  obtain ⟨stub, hstub, made⟩ := ok_of_bind made
                  cases made
                  rw [awaits, isAsync_of_stub hstub scanned reads, Bool.true_or]
              next => cases made
      next => cases reads
  next => cases reads

theorem told_of_sourceless (sourceless : h.Sourceless a r) :
    h.told a r = (h.awaits r, h.yields r) := by
  rw [told]
  cases hreads : h.textAwaits a r with
  | false => rw [Bool.and_false, Bool.or_false]
  | true => rw [awaits_of_textAwaits sourceless hreads, Bool.true_or]

/-- What does not stand for another callable has the flavor of a function that it could be, and else
none of its own. -/
theorem flavor_of_unfixed (unbound : h.bound? r = none) (unfixed : ∀ p, h.shape r ≠ .partialOf p) :
    h.flavor r = match h.asFunction? r with
      | some (c, _) => c.flavor
      | none => .plain := by
  have hholder := attributeHolder_of_endsAfter (.here unbound)
  have hunfix (n : Nat) : h.unfixFrom n r = r := by
    cases n with
    | zero => rfl
    | succ n =>
        rw [unfixFrom]
        split
        next p found => exact absurd found (unfixed p)
        next => rfl
  cases hfound : h.asFunction? r with
  | none => rw [flavor, hholder, hunfix, hfound]
  | some found => rw [flavor, hholder, hunfix, hfound]

/-- What has all that a function has also has code, and so its flags. -/
theorem codeFlags?_of_asFunction? {code : FunctionCode} {s : Signature}
    (found : h.asFunction? r = some (code, s)) : h.codeFlags? r = some code.flavor.flag := by
  unfold asFunction? at found
  dsimp only at found
  split at found
  next compiled _ _ hcode _ _ =>
      split at found
      next =>
          cases found
          rw [codeFlags?, hcode]
          rfl
      next => cases found
  next => cases found

/-- An instance is read by the flags that its attributes tell. -/
theorem awaits_of_instance {cls : Ref} (found : h.shape r = .instanceOf cls) :
    h.awaits r = (h.codeFlagged r .coroutine || h.codeFlagged r .asyncGenerator) ∧
      h.yields r = (h.codeFlagged r .generator || h.codeFlagged r .asyncGenerator) := by
  have hflavor := h.flavor_of_unfixed (r := r) (by rw [bound?, found]) (by rw [found]; exact nofun)
  rw [awaits, yields, hflavor]
  cases has : h.asFunction? r with
  | none => exact ⟨rfl, rfl⟩
  | some part =>
      -- the flavor of the code is what the flags of the code tell anyway
      obtain ⟨code, s⟩ := part
      rw [codeFlagged, codeFlagged, codeFlagged, codeFlags?_of_asFunction? has]
      cases hcode : code.flavor <;> simp only [hcode] <;> exact ⟨rfl, rfl⟩

/-- A builtin callable without an attribute `__code__`. -/
structure Native (h : Heap) (r : Ref) : Prop where
  builtin : ∃ b, h.shape r = .builtin b
  codeless : Keyed.find? "__code__" (h.ownAttributes r) = none

theorem awaits_of_native (native : h.Native r) : h.awaits r = false ∧ h.yields r = false := by
  obtain ⟨⟨b, found⟩, codeless⟩ := native
  have hbound : h.bound? r = none := by rw [bound?, found]
  have hcode : h.attribute? r "__code__" = none := by
    have hproper : h.properAttribute? r "__code__" = none := by
      simp [properAttribute?, found]
    rw [attribute?, attributeHolder_of_endsAfter (.here hbound), directAttribute?, hproper,
      classOf?, found]
    dsimp only
    rw [codeless]
    rfl
  have hflags : h.codeFlags? r = none := by
    rw [codeFlags?, hcode]
    rfl
  have hfunction : h.asFunction? r = none := by
    rw [asFunction?, hcode]
  have hunfixed : ∀ p, h.shape r ≠ .partialOf p := by
    intro p other
    cases found.symm.trans other
  have hflavor : h.flavor r = .plain := by
    rw [flavor_of_unfixed hbound hunfixed, hfunction]
  rw [awaits, yields, codeFlagged, codeFlagged, codeFlagged, hflavor, hflags]
  exact ⟨rfl, rfl⟩

theorem Alike.told {h' : Heap} (alike : h'.Alike h) (a : Archive) (r : Ref) :
    h'.told a r = h.told a r := by
  simp only [Heap.told, Heap.awaits, Heap.yields, Heap.codeFlagged, Heap.textAwaits, alike.flavor,
    alike.codeFlags?, alike.ofRoutine]

/-- Of a function, and of methods with a function behind them, the text is not read. -/
theorem told_of_function {info : FunctionInfo} (nested : EndsAfter h.bound? n c e)
    (found : h.shape e = .function info) :
    h.told a c = (info.flavor.isAsync, info.flavor.isGenerator) := by
  rw [told, awaits_of_endsAfter nested, yields_of_endsAfter nested, codeFlags?_of_endsAfter nested,
    awaits_of_function found, yields_of_function found, codeFlags?_of_function found,
    Option.isNone_some, Bool.false_and, Bool.or_false]

variable {routine : Routine}

/-- The routine of a function, and of methods with a function behind them, tells what they tell. -/
theorem told_routine_of_function {info : FunctionInfo} (nested : EndsAfter h.bound? n c e)
    (found : h.shape e = .function info) (leads : h.routine c = .ok routine) :
    h.told a routine.func = (info.flavor.isAsync, info.flavor.isGenerator) := by
  cases nested with
  | here last =>
      cases (routine_of_function found).symm.trans leads
      exact told_of_function (.here last) found
  | step first rest =>
      obtain ⟨receiver, method⟩ := exists_method_of_bound? first
      cases (routine_of_method method).symm.trans leads
      exact told_of_function rest found

/-- What neither a text nor attributes of instances tell is told by the routine as well. -/
theorem told_routine_of_sourceless (nested : EndsAfter h.bound? n c e) (other : h.classOf? c = none)
    (leads : h.routine c = .ok routine) (sourceless : h.Sourceless a c)
    (sourceless' : h.Sourceless a routine.func)
    (native : ∀ b w, h.shape c = .builtin b → b.wrapped = some w → h.Native c ∧ h.Native w) :
    h.told a c = h.told a routine.func := by
  rw [told_of_sourceless sourceless, told_of_sourceless sourceless']
  cases found : h.shape c with
  | function f =>
      cases (routine_of_function found).symm.trans leads
      rfl
  | cls k =>
      cases (routine_of_class found).symm.trans leads
      rfl
  | method func receiver =>
      cases (routine_of_method found).symm.trans leads
      cases nested with
      | here last => cases last.symm.trans (bound?_of_method found)
      | step first rest =>
          cases first.symm.trans (bound?_of_method found)
          rw [awaits_of_endsAfter (.step first rest), yields_of_endsAfter (.step first rest),
            awaits_of_endsAfter rest, yields_of_endsAfter rest]
  | builtin b =>
      cases (routine_of_builtin found).symm.trans leads
      cases wrapped : b.wrapped with
      | none => rfl
      | some w =>
          obtain ⟨⟨hawaits, hyields⟩, hawaits', hyields'⟩ :=
            (native b w found wrapped).imp awaits_of_native awaits_of_native
          rw [hawaits, hyields, Option.getD_some, hawaits', hyields']
  | datum d =>
      rw [Heap.routine, routineFrom, found] at leads
      cases leads
  | instanceOf cls =>
      rw [classOf?, found] at other
      cases other
  | partialOf p =>
      rw [classOf?, found] at other
      cases other

end Heap

/-! ### Records -/

namespace Study

/-- Probes leave a study as it reads. -/
theorem keeps_alike_ask (s : Study) (p : Probe) : Keeps (fun s' => s'.Alike s) (ask p) := by
  intro s' alike
  have hheap : (s'.world.probe s'.tracker p s'.subject).2.heap.Alike s.heap := by
    cases p with
    | constructible => exact (Heap.Alike.touchDict s'.world.heap s'.subject).trans alike.heap
    | constructsOnly => exact alike.heap
  rw [outcome_ask]
  generalize s'.world.probe s'.tracker p s'.subject = probed at hheap ⊢
  obtain ⟨f | verdict, world⟩ := probed
  · exact ⟨hheap, alike.subject, alike.segments⟩
  · exact ⟨hheap, alike.subject, alike.segments⟩

theorem keeps_alike_isConstructor (s : Study) : Keeps (fun s' => s'.Alike s) isConstructor :=
  keeps_isConstructor (keeps_alike_ask s .constructible) fun _ _ alike =>
    ⟨alike.heap, alike.subject, alike.segments⟩

theorem keeps_alike_isClass (s : Study) : Keeps (fun s' => s'.Alike s) isClass :=
  keeps_isClass (keeps_alike_ask s .constructsOnly) fun _ _ alike =>
    ⟨alike.heap, alike.subject, alike.segments⟩

end Study

namespace Inquiry

/-- What a description tells of the calls is what the study tells at its beginning. -/
theorem calls_of_describe {t : Tracker} {target source : Ref} {s : Study} {record : FeatureRecord}
    (described : (outcome (describe t target source) s).1 = .ok record) :
    s.isAsync = .ok record.isAsync ∧ s.isGenerator = .ok record.isGenerator := by
  obtain ⟨s₁, s₂, s₃, s₄, h₁, h₂, h₃, -, hasync, h₄, hgenerator⟩ := exists_of_describe described
  have hconstructor := s.keeps_alike_isConstructor
  have hclass := s.keeps_alike_isClass
  have alike₁ : s₁.Alike s := by
    simpa only [h₁] using hconstructor s ⟨.refl s.heap, rfl, rfl⟩
  have alike₂ : s₂.Alike s := by simpa only [h₂] using hclass s₁ alike₁
  have alike₃ : s₃.Alike s := by
    simpa only [h₃] using Study.keeps_isClassic hconstructor hclass s₂ alike₂
  have alike₄ : s₄.Alike s := by
    simpa only [h₄] using Study.keeps_isMemberMethod hclass s₃ alike₃
  exact ⟨alike₃.isAsync.symm.trans hasync, alike₄.isGenerator.symm.trans hgenerator⟩

/-- The record of a callable that no wrap made tells what is told of the calls of its routine. -/
theorem told_of_classify {q : Inquiry} {a : Archive} {r : Ref} {record : FeatureRecord}
    (faithful : q.Faithful a) (unknown : ¬ q.tracker.Knows r)
    (classified : (outcome (classify r) q).1 = .ok record) :
    ∃ routine, q.world.heap.routine r = .ok routine ∧
      (record.isAsync, record.isGenerator) = q.world.heap.told a routine.func := by
  rw [(faithful.classify r).1] at classified
  cases callable : q.world.heap.callable r with
  | false =>
      rw [anew, callable, if_neg Bool.false_ne_true] at classified
      cases classified
  | true =>
      rw [anew_of_callable a callable, Tracker.source_of_not_knows unknown] at classified
      obtain ⟨t, ht, classified⟩ := ok_of_bind classified
      obtain ⟨s, hs, classified⟩ := ok_of_bind classified
      obtain ⟨described, s', hdescribed, hchecked⟩ := exists_of_outcome_bind classified
      obtain ⟨hasync, hgenerator⟩ := calls_of_describe (congrArg Prod.fst hdescribed)
      rw [← eq_of_outcome_checked hchecked] at hasync hgenerator
      cases hroutine : q.world.heap.routine r with
      | error f =>
          rw [Normalizer.anew, Normalizer.find] at ht
          dsimp only [Normalizer.ofOrigin] at ht
          rw [hroutine] at ht
          cases ht
      | ok routine =>
          rw [Normalizer.anew_of_routine a hroutine] at ht
          have hasync := (Study.isAsync_of_routine
            (s := .begin q.world q.classifier.tracker r s) hroutine).symm.trans hasync
          have hgenerator := (Study.isGenerator_of_routine
            (s := .begin q.world q.classifier.tracker r s) hroutine).symm.trans hgenerator
          have hreads : q.world.heap.textAwaits a routine.func = Study.beginsAsync s.head := by
            rw [Heap.textAwaits, ht]
            dsimp only
            rw [hs]
          refine ⟨routine, rfl, ?_⟩
          rw [Heap.told, hreads, ← Except.ok.inj hasync, ← Except.ok.inj hgenerator]
          rfl

/-- What the records of a callable and of a method of it tell of the calls, if no wrap made either of them.
The method tells what the callable itself reads as, and the callable what its routine reads as. For a
function, also behind methods, both tell the flavor of the function. For other callables that are no
instances both tell the same, as far as no sources are known of builtins and methods. For an instance they
tell the same if and only if the flags that its attributes tell agree with its routine. -/
theorem classify_method_iff {q q' : Inquiry} {a : Archive} {c m o e : Ref} {n : Nat}
    {rc rm : FeatureRecord} (faithful : q.Faithful a) (faithful' : q'.Faithful a)
    (alike : q'.world.heap.Alike q.world.heap) (method : q.world.heap.shape m = .method c o)
    (nested : EndsAfter q.world.heap.bound? n c e) (unknown : ¬ q.tracker.Knows c)
    (unknown' : ¬ q'.tracker.Knows m) (classified : (outcome (classify c) q).1 = .ok rc)
    (classified' : (outcome (classify m) q').1 = .ok rm) :
    let h := q.world.heap
    ∃ routine, h.routine c = .ok routine ∧
      ((rm.isAsync = rc.isAsync ∧ rm.isGenerator = rc.isGenerator) ↔
        h.told a c = h.told a routine.func) ∧
      (∀ info, h.shape e = .function info →
        rc.isAsync = info.flavor.isAsync ∧ rm.isAsync = info.flavor.isAsync ∧
        rc.isGenerator = info.flavor.isGenerator ∧ rm.isGenerator = info.flavor.isGenerator) ∧
      (h.classOf? c = none →
        (routine.func = c ∨ h.Sourceless a c ∧ h.Sourceless a routine.func) →
        (∀ b w, h.shape c = .builtin b → b.wrapped = some w → h.Native c ∧ h.Native w) →
        rm.isAsync = rc.isAsync ∧ rm.isGenerator = rc.isGenerator) ∧
      ∀ cls, h.shape c = .instanceOf cls → h.Sourceless a c → h.Sourceless a routine.func →
        ((rm.isAsync = rc.isAsync ∧ rm.isGenerator = rc.isGenerator) ↔
          (h.codeFlagged c .coroutine || h.codeFlagged c .asyncGenerator) = h.awaits routine.func ∧
          (h.codeFlagged c .generator || h.codeFlagged c .asyncGenerator) =
            h.yields routine.func) := by
  intro h
  obtain ⟨routine, hroutine, hc⟩ := told_of_classify faithful unknown classified
  obtain ⟨routine', hroutine', hm⟩ := told_of_classify faithful' unknown' classified'
  rw [alike.routine, Heap.routine_of_method method] at hroutine'
  cases hroutine'
  rw [alike.told] at hm
  have hiff : (rm.isAsync = rc.isAsync ∧ rm.isGenerator = rc.isGenerator) ↔
      h.told a c = h.told a routine.func := by
    rw [← hc, ← hm, Prod.mk.injEq]
  refine ⟨routine, hroutine, hiff, fun info found => ?_, fun other sourceless native => ?_,
    fun cls found sourceless sourceless' => ?_⟩
  · rw [Heap.told_of_function nested found] at hm
    rw [Heap.told_routine_of_function nested found hroutine] at hc
    obtain ⟨hasync, hgenerator⟩ := Prod.mk.inj hc
    obtain ⟨hasync', hgenerator'⟩ := Prod.mk.inj hm
    exact ⟨hasync, hasync', hgenerator, hgenerator'⟩
  · rw [hiff]
    obtain hself | ⟨hsourceless, hsourceless'⟩ := sourceless
    · rw [hself]
    · exact Heap.told_routine_of_sourceless nested other hroutine hsourceless hsourceless' native
  · obtain ⟨hawaits, hyields⟩ := Heap.awaits_of_instance found
    rw [hiff, Heap.told_of_sourceless sourceless, Heap.told_of_sourceless sourceless', Prod.mk.injEq,
      hawaits, hyields]

/-- The world with a function that is awaited, an instance of a class that has it for its `__call__`, a
method that binds the function, a method that binds this method, and one that binds the instance. -/
def boundCallables : World := World.initial.run [
  .create (.function (.ofSignature "f" "f" .coroutine Signature.anything (.echo "f"))) none,
  .create (.cls ⟨"m", "C", "C", "type", [Catalog.objectClass], false, false, false, none, false⟩)
    (some [("__call__", .object World.initial.heap.size)]),
  .create (.instanceOf (World.initial.heap.size + 1)) (some []),
  .create (.method World.initial.heap.size (World.initial.heap.size + 2)) none,
  .create (.method (World.initial.heap.size + 3) (World.initial.heap.size + 2)) none,
  .create (.method (World.initial.heap.size + 2) (World.initial.heap.size + 2)) none]

/-- A classifier of these callables that nothing was asked of yet. -/
def binder : Inquiry := fresh boundCallables .files World.mainTracker Rule.standard

/-- A method of a method of the function is awaited, as both of these are. -/
theorem classify_method_iff_nested :
    let inner := World.initial.heap.size + 3
    let outer := World.initial.heap.size + 4
    ∃ rc rm, (outcome (classify inner) binder).1 = .ok rc ∧
      (outcome (classify outer) binder).1 = .ok rm ∧
      rc.isAsync = true ∧ rm.isAsync = true ∧ rc.isGenerator = false ∧ rm.isGenerator = false := by
  intro inner outer
  have hinner : (outcome (classify inner) binder).1.toOption.isSome = true := by decide +kernel
  have houter : (outcome (classify outer) binder).1.toOption.isSome = true := by decide +kernel
  obtain ⟨rc, hrc⟩ := Option.isSome_iff_exists.mp hinner
  obtain ⟨rm, hrm⟩ := Option.isSome_iff_exists.mp houter
  obtain ⟨routine, -, -, htold, -⟩ := classify_method_iff (faithful_fresh ..) (faithful_fresh ..)
    (.refl binder.world.heap) (c := inner) (m := outer) rfl (.step rfl (.here rfl))
    (by decide +kernel) (by decide +kernel) (eq_ok_of_toOption hrc) (eq_ok_of_toOption hrm)
  exact ⟨rc, rm, eq_ok_of_toOption hrc, eq_ok_of_toOption hrm, htold _ rfl⟩

/-- Not every method is awaited if the callable is that it binds. -/
theorem not_classify_method :
    ¬ ∀ (q : Inquiry) (c m o : Ref) (rc rm : FeatureRecord), q.world.heap.shape m = .method c o →
      ¬ q.tracker.Knows c → ¬ q.tracker.Knows m → (outcome (classify c) q).1 = .ok rc →
      (outcome (classify m) q).1 = .ok rm →
      rm.isAsync = rc.isAsync ∧ rm.isGenerator = rc.isGenerator := by
  intro all
  let x := World.initial.heap.size + 2
  let m := World.initial.heap.size + 5
  have hcallable : (outcome (classify x) binder).1.toOption.map FeatureRecord.isAsync = some true := by
    decide +kernel
  have hmethod : (outcome (classify m) binder).1.toOption.map FeatureRecord.isAsync = some false := by
    decide +kernel
  obtain ⟨rc, hrc, hasync⟩ := Option.map_eq_some_iff.mp hcallable
  obtain ⟨rm, hrm, hasync'⟩ := Option.map_eq_some_iff.mp hmethod
  have hsame := (all binder x m x rc rm rfl (by decide +kernel) (by decide +kernel)
    (eq_ok_of_toOption hrc) (eq_ok_of_toOption hrm)).1
  rw [hasync, hasync'] at hsame
  cases hsame

end Inquiry

end CallableKinds
