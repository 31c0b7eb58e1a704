import CallableKinds.Proofs.Following
import CallableKinds.Proofs.Renaming

/-!
# What runs when an instance is called

A call of an instance runs what its class has for a `__call__`. The routine of the instance is looked for
where the instance shows a `__call__` of its own, if it does, and from there on to where that leads. So
the routine is the one that runs unless such an attribute leads elsewhere, or round in circles.
-/

namespace CallableKinds

namespace Heap

variable {h : Heap} {r s e : Ref} {n : Nat}

/-! ### From one object to the next -/

theorem isClass_of_classOf? {cls : Ref} (classed : h.classOf? r = some cls) : h.isClass r = false := by
  rw [classOf?] at classed
  rw [isClass]
  cases hshape : h.shape r with
  | cls c =>
      rw [hshape] at classed
      cases classed
  | _ => rfl

/-- The object that an object shows as its `__call__` and that its routine is looked for in. -/
def shown? (h : Heap) (r : Ref) : Option Ref :=
  match h.classOf? r with
  | none => none
  | some cls =>
    match h.callSlot r cls with
    | .own (.object next) => some next
    | .inherited (.object slot) =>
      match h.shape slot with
      | .function _ => none
      | .builtin b => if b.bindsReceiver then none else some slot
      | _ => some slot
    | _ => none

theorem shown?_lt (shows : h.shown? r = some s) : r < h.size := by
  apply lt_size_of_shape
  intro outside
  rw [shown?, classOf?, outside] at shows
  cases shows

theorem boundDescriptor_ne_endlessCall (h : Heap) (r slot : Ref) (b : BuiltinInfo) :
    h.boundDescriptor r slot b ≠ .error .endlessCall := by
  rw [boundDescriptor]
  split
  · simp
  · split <;> simp

/-- How the routine of an object without code of its own is found. -/
theorem exists_routineFrom_of_classOf? {cls : Ref} (classed : h.classOf? r = some cls) :
    ∃ missing, missing ≠ .error .endlessCall ∧ ∀ fuel, h.routineFrom (fuel + 1) r =
      match h.callSlot r cls with
      | .own (.object next) => h.routineFrom fuel next
      | .own v => .error (.notCallable (h.printValue v))
      | .inherited (.object slot) =>
        match h.shape slot with
        | .function _ => .ok ⟨slot, some r, false⟩
        | .builtin b =>
          if b.bindsReceiver then h.boundDescriptor r slot b else h.routineFrom fuel slot
        | _ => h.routineFrom fuel slot
      | .inherited v => .error (.notCallable (h.printValue v))
      | .missing => missing := by
  rw [classOf?] at classed
  cases hshape : h.shape r with
  | instanceOf c =>
      rw [hshape] at classed
      cases classed
      refine ⟨.error (.notCallable (h.print r)), by simp, fun fuel => ?_⟩
      rw [routineFrom, hshape]
      dsimp only
      rcases h.callSlot r cls with (_ | _) | (_ | _) | _ <;> rfl
  | partialOf p =>
      rw [hshape] at classed
      cases classed
      refine ⟨.ok ⟨Catalog.partialCall, some r, false⟩, by simp, fun fuel => ?_⟩
      rw [routineFrom, hshape]
      dsimp only
      rcases h.callSlot r p.cls with (_ | _) | (_ | _) | _ <;> rfl
  | _ =>
      rw [hshape] at classed
      cases classed

/-- One step: the routine is that of the object that is shown, or it is found or missed at once. -/
theorem routineFrom_cases (h : Heap) (r : Ref) :
    (∃ s, h.shown? r = some s ∧ ∀ fuel, h.routineFrom (fuel + 1) r = h.routineFrom fuel s) ∨
    (h.shown? r = none ∧ ∃ found, found ≠ .error .endlessCall ∧
      ∀ fuel, h.routineFrom (fuel + 1) r = found) := by
  rw [shown?]
  cases classed : h.classOf? r with
  | none =>
      rw [classOf?] at classed
      refine .inr ⟨rfl, ?_⟩
      cases hshape : h.shape r with
      | instanceOf c =>
          rw [hshape] at classed
          cases classed
      | partialOf p =>
          rw [hshape] at classed
          cases classed
      | _ =>
          simp only [routineFrom, hshape]
          refine ⟨_, ?_, fun _ => rfl⟩
          simp
  | some cls =>
      obtain ⟨missing, hmissing, hroutine⟩ := exists_routineFrom_of_classOf? classed
      have hvalue (v : Value) : .error (.notCallable (h.printValue v)) ≠
          (.error .endlessCall : Except Fault Routine) := by simp
      simp only [hroutine]
      rcases h.callSlot r cls with v | v | _
      · cases v with
        | object next => exact .inl ⟨next, rfl, fun _ => rfl⟩
        | _ => exact .inr ⟨rfl, _, hvalue _, fun _ => rfl⟩
      · cases v with
        | object slot =>
            dsimp only
            cases h.shape slot with
            | function f => exact .inr ⟨rfl, .ok ⟨slot, some r, false⟩, by simp, fun _ => rfl⟩
            | builtin b =>
                dsimp only
                split
                · exact .inr ⟨rfl, _, h.boundDescriptor_ne_endlessCall r slot b, fun _ => rfl⟩
                · exact .inl ⟨slot, rfl, fun _ => rfl⟩
            | _ => exact .inl ⟨slot, rfl, fun _ => rfl⟩
        | _ => exact .inr ⟨rfl, _, hvalue _, fun _ => rfl⟩
      · exact .inr ⟨rfl, _, hmissing, fun _ => rfl⟩

/-- The routine is looked for step by step. -/
theorem traces_routineFrom (h : Heap) : Traces h.shown? h.routineFrom := by
  intro r s shows fuel
  obtain ⟨s', shows', hstep⟩ | ⟨last, -⟩ := h.routineFrom_cases r
  · cases shows.symm.trans shows'
    exact hstep fuel
  · cases last.symm.trans shows

/-- At the end of the steps the routine is found or missed at once. -/
theorem routineFrom_of_last (last : h.shown? r = none) :
    ∃ found, found ≠ .error .endlessCall ∧ ∀ fuel, h.routineFrom (fuel + 1) r = found := by
  obtain ⟨s, shows, -⟩ | ⟨-, found⟩ := h.routineFrom_cases r
  · cases last.symm.trans shows
  · exact found

/-- Within so many steps as there are objects the end is reached. -/
theorem routine_of_endsAfter (ends : EndsAfter h.shown? n r e) : h.routine r = h.routineFrom 1 e := by
  have hle := ends.le_size fun _ _ => shown?_lt
  have hfuel : h.size + 1 = h.size - n + 1 + n := by omega
  obtain ⟨found, -, hfound⟩ := routineFrom_of_last ends.last
  rw [routine, hfuel, h.traces_routineFrom.run_add ends, hfound, hfound]

/-- The routine of an object is that of the object that it shows. -/
theorem routine_of_shown? (shows : h.shown? r = some s) : h.routine r = h.routine s := by
  by_cases circles : Circles h.shown? r
  · obtain ⟨t, hnext, hcircles⟩ := circles.exists_next
    cases shows.symm.trans hnext
    obtain ⟨e, he⟩ := h.traces_routineFrom.exists_run_zero circles (h.size + 1)
    obtain ⟨d, hd⟩ := h.traces_routineFrom.exists_run_zero hcircles (h.size + 1)
    rw [routine, routine, he, hd]
    rfl
  · obtain ⟨n, e, hends⟩ := exists_endsAfter (fun _ _ => shown?_lt) circles
    cases hends with
    | here last => cases last.symm.trans shows
    | step first rest =>
        cases first.symm.trans shows
        rw [routine_of_endsAfter (.step first rest), routine_of_endsAfter rest]

/-- There is no end of looking for a routine only in a circle. -/
theorem routine_eq_endlessCall_iff : h.routine r = .error .endlessCall ↔ Circles h.shown? r := by
  constructor
  · intro endless
    by_contra straight
    obtain ⟨n, e, hends⟩ := exists_endsAfter (fun _ _ => shown?_lt) straight
    obtain ⟨found, hends', hfound⟩ := routineFrom_of_last hends.last
    rw [routine_of_endsAfter hends, hfound] at endless
    exact hends' endless
  · intro circles
    obtain ⟨e, he⟩ := h.traces_routineFrom.exists_run_zero circles (h.size + 1)
    rw [routine, he]
    rfl

/-- The routine of an object that an attribute may be. -/
def routineOf (h : Heap) : Value → Except Fault Routine
  | .object next => h.routine next
  | v => .error (.notCallable (h.printValue v))

/-- An own `__call__` takes the place of what the class has. -/
theorem routine_of_own {cls : Ref} {v : Value} (classed : h.classOf? r = some cls)
    (own : Keyed.find? "__call__" (h.ownAttributes r) = some v) : h.routine r = h.routineOf v := by
  obtain ⟨missing, -, hroutine⟩ := exists_routineFrom_of_classOf? classed
  have hslot : h.callSlot r cls = .own v := by rw [callSlot, own]
  cases v with
  | object next =>
      have shows : h.shown? r = some next := by
        rw [shown?, classed]
        dsimp only
        rw [hslot]
      exact routine_of_shown? shows
  | _ =>
      rw [routine, hroutine, hslot]
      rfl

/-- Without an own `__call__` the function of the class is bound to the instance. -/
theorem routine_of_inherited {cls slot : Ref} {info : FunctionInfo}
    (classed : h.classOf? r = some cls)
    (own : Keyed.find? "__call__" (h.ownAttributes r) = none)
    (defined : h.classAttribute? cls "__call__" = some (.object slot))
    (function : h.shape slot = .function info) : h.routine r = .ok ⟨slot, some r, false⟩ := by
  obtain ⟨missing, -, hroutine⟩ := exists_routineFrom_of_classOf? classed
  have hslot : h.callSlot r cls = .inherited (.object slot) := by rw [callSlot, own, defined]
  rw [routine, hroutine, hslot]
  dsimp only
  rw [function]

/-! ### What is told of the calls of a routine -/

/-- Whether the calls of a routine have to be awaited, as far as it does not take its text to tell. -/
def awaits (h : Heap) (r : Ref) : Bool :=
  (h.flavor r).isAsync || (h.codeFlagged r .coroutine || h.codeFlagged r .asyncGenerator)

/-- Whether the calls of a routine give one value after another. -/
def yields (h : Heap) (r : Ref) : Bool :=
  (h.flavor r).isGenerator || (h.codeFlagged r .generator || h.codeFlagged r .asyncGenerator)

theorem awaits_of_function {info : FunctionInfo} (found : h.shape r = .function info) :
    h.awaits r = info.flavor.isAsync := by
  rw [awaits, codeFlagged, codeFlagged, flavor_of_function found, codeFlags?_of_function found]
  cases info.flavor <;> rfl

theorem yields_of_function {info : FunctionInfo} (found : h.shape r = .function info) :
    h.yields r = info.flavor.isGenerator := by
  rw [yields, codeFlagged, codeFlagged, flavor_of_function found, codeFlags?_of_function found]
  cases info.flavor <;> rfl

end Heap

namespace Study

variable {s : Study} {routine : Routine}

theorem isAsync_of_routine (found : s.routine = .ok routine) :
    s.isAsync = .ok (s.heap.awaits routine.func ||
      ((s.heap.codeFlags? routine.func).isNone && beginsAsync s.segments.head)) := by
  rw [isAsync, found]
  change (if (s.heap.flavor routine.func).isAsync then pure true else _) = _
  rw [Heap.awaits, Heap.codeFlagged, Heap.codeFlagged]
  cases (s.heap.flavor routine.func).isAsync with
  | true => rfl
  | false =>
      rw [if_neg Bool.false_ne_true]
      cases s.heap.codeFlags? routine.func with
      | none => rfl
      | some flags =>
          change Except.ok _ = Except.ok _
          simp

theorem isGenerator_of_routine (found : s.routine = .ok routine) :
    s.isGenerator = .ok (s.heap.yields routine.func) := by
  rw [isGenerator, found]
  change (if (s.heap.flavor routine.func).isGenerator then pure true else _) = _
  rw [Heap.yields, Heap.codeFlagged, Heap.codeFlagged]
  cases (s.heap.flavor routine.func).isGenerator with
  | true => rfl
  | false =>
      rw [if_neg Bool.false_ne_true]
      cases s.heap.codeFlags? routine.func <;> rfl

end Study

/-- The text of an object is that of its routine. -/
theorem Normalizer.anew_of_routine {h : Heap} {r : Ref} {routine : Routine} (a : Archive)
    (found : h.routine r = .ok routine) : anew a h r = ofRoutine h a routine.func := by
  rw [anew, find]
  dsimp only [ofOrigin]
  rw [found]

/-- A call of an instance runs the function of its class, with the instance in front of the arguments. -/
theorem World.call_of_instance {w : World} {r cls slot : Ref} {info : FunctionInfo}
    (classed : w.heap.shape r = .instanceOf cls)
    (defined : w.heap.classAttribute? cls "__call__" = some (.object slot))
    (function : w.heap.shape slot = .function info) (args : Arguments) :
    w.call r args = w.call slot (args.after [.object r] []) := by
  have hr : r < w.heap.size := Heap.lt_size_of_shape (by rw [classed]; exact nofun)
  obtain ⟨n, hsize⟩ := Nat.exists_eq_succ_of_ne_zero (Nat.ne_zero_of_lt hr)
  have passed : w.heap.passedOn? r args = some (slot, args.after [.object r] []) := by
    rw [Heap.passedOn?, classed]
    dsimp only
    rw [Heap.throughClass?, defined]
    dsimp only
    rw [function]
  rw [call, call, callFrom, classed]
  dsimp only
  rw [passed]
  dsimp only
  rw [hsize, callFrom, callFrom, function]

namespace Heap

/-- The routine of an instance of a class with a function for its `__call__` is this function, bound to
the instance, whatever attributes the instance has, unless it has a `__call__` of its own that does not
lead to the same routine. Such an attribute is followed to the routine of the object that it is, and there
is no end of that exactly if it leads round in a circle. With this routine the text of the instance is that
of the function, and the instance is awaited and gives one value after another as the function does. It is
what a call of the instance runs in any case. -/
theorem routine_of_instance_iff {h : Heap} {r cls slot : Ref} {info : FunctionInfo}
    (classed : h.classOf? r = some cls)
    (defined : h.classAttribute? cls "__call__" = some (.object slot))
    (function : h.shape slot = .function info) :
    (h.routine r = .ok ⟨slot, some r, false⟩ ↔
      ∀ v, Keyed.find? "__call__" (h.ownAttributes r) = some v →
        h.routineOf v = .ok ⟨slot, some r, false⟩) ∧
    (∀ v, Keyed.find? "__call__" (h.ownAttributes r) = some v → h.routine r = h.routineOf v) ∧
    (h.routine r = .error .endlessCall ↔ Circles h.shown? r) ∧
    (h.routine r = .ok ⟨slot, some r, false⟩ →
      (∀ a, Normalizer.anew a h r = Normalizer.anew a h slot) ∧
      ∀ s : Study, s.heap = h → s.subject = r →
        s.isAsync = .ok info.flavor.isAsync ∧ s.isGenerator = .ok info.flavor.isGenerator ∧
          s.memberMethod = .ok (!s.isArrow)) ∧
    ∀ (w : World) (args : Arguments), w.heap = h → h.shape r = .instanceOf cls →
      w.call r args = w.call slot (args.after [.object r] []) := by
  refine ⟨⟨fun found v own => (routine_of_own classed own).symm.trans found, fun leads => ?_⟩,
    fun v own => routine_of_own classed own, routine_eq_endlessCall_iff, fun found => ?_, ?_⟩
  · cases own : Keyed.find? "__call__" (h.ownAttributes r) with
    | none => exact routine_of_inherited classed own defined function
    | some v => rw [routine_of_own classed own, leads v own]
  · refine ⟨fun a => ?_, ?_⟩
    · rw [Normalizer.anew_of_routine a found, Normalizer.anew_of_routine a (routine_of_function function)]
    · rintro s rfl rfl
      have hclass : s.hasClassStatement = false := by
        rw [Study.hasClassStatement, Study.subjectIsClass, isClass_of_classOf? classed, Bool.and_false]
      have hflags : (s.heap.codeFlags? slot).isNone = false := by
        rw [codeFlags?_of_function function]
        rfl
      refine ⟨?_, ?_, ?_⟩
      · rw [Study.isAsync_of_routine found, awaits_of_function function, hflags, Bool.false_and,
          Bool.or_false]
      · rw [Study.isGenerator_of_routine found, yields_of_function function]
      · have hroutine : s.routine = .ok ⟨slot, some s.subject, false⟩ := found
        rw [Study.memberMethod, hclass, Bool.or_false, hroutine]
        cases s.isArrow <;> rfl
  · rintro w args rfl instance_
    exact World.call_of_instance instance_ defined function args

/-- The world with an instance whose class has a function that is awaited for its `__call__`. Attributes of
the instance say that it is called differently and is not awaited. -/
def annotatedInstance : World := World.initial.run [
  .create (.function (.ofSignature "f" "f" .coroutine Signature.anything (.echo "f"))) none,
  .create (.cls ⟨"m", "C", "C", "type", [Catalog.objectClass], false, false, false, none, false⟩)
    (some [("__call__", .object World.initial.heap.size)]),
  .create (.instanceOf (World.initial.heap.size + 1))
    (some [("__name__", .datum (.str "g")), ("__code__", .code (.int 0))])]

/-- The routine of the instance is the function, and the instance is awaited. -/
theorem routine_of_instance_iff_annotated :
    let h := annotatedInstance.heap
    let f := World.initial.heap.size
    let x := World.initial.heap.size + 2
    h.routine x = .ok ⟨f, some x, false⟩ ∧ ¬ Circles h.shown? x ∧
      (Study.begin annotatedInstance World.mainTracker x default).isAsync = .ok true := by
  intro h f x
  have defined : h.classAttribute? (World.initial.heap.size + 1) "__call__" = some (.object f) := rfl
  have classed : h.classOf? x = some (World.initial.heap.size + 1) := rfl
  obtain ⟨hfound, -, hendless, hreads, -⟩ := routine_of_instance_iff classed defined rfl
  have hroutine := hfound.mpr fun v own => by cases own
  refine ⟨hroutine, fun circles => ?_, ?_⟩
  · cases hroutine.symm.trans (hendless.mpr circles)
  · exact ((hreads hroutine).2 _ rfl rfl).1

/-- The world with an instance that has itself for its own `__call__`. -/
def calledByItself : World := World.initial.run [
  .create (.function (.ofSignature "f" "f" .plain Signature.anything (.echo "f"))) none,
  .create (.cls ⟨"m", "C", "C", "type", [Catalog.objectClass], false, false, false, none, false⟩)
    (some [("__call__", .object World.initial.heap.size)]),
  .create (.instanceOf (World.initial.heap.size + 1))
    (some [("__call__", .object (World.initial.heap.size + 2))])]

/-- Not every instance of a class with a function for its `__call__` has this function for its routine. -/
theorem not_routine_of_instance :
    ¬ ∀ (h : Heap) (r cls slot : Ref) (info : FunctionInfo), h.classOf? r = some cls →
      h.classAttribute? cls "__call__" = some (.object slot) → h.shape slot = .function info →
      h.routine r = .ok ⟨slot, some r, false⟩ := by
  intro all
  have hcircles : Circles calledByItself.heap.shown? (World.initial.heap.size + 2) :=
    ⟨World.initial.heap.size + 2, .refl, .single rfl⟩
  have hendless := routine_eq_endlessCall_iff.mpr hcircles
  rw [all calledByItself.heap _ _ World.initial.heap.size _ rfl rfl rfl] at hendless
  cases hendless

end Heap

end CallableKinds
