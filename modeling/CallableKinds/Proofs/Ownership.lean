import CallableKinds.Proofs.Transparency

/-!
# Ownership of records

Trackers take turns in being installed, and whoever came by a wrapping primitive may keep it. What
the primitive is decides whether its calls are reported, and the tracker that is installed at the
moment of the call decides who takes record of them. No other tracker does.
-/

namespace CallableKinds

namespace World

/-- An event calls a wrapping primitive, instrumented or not, which makes `result` of `target`. -/
inductive Wraps (w : World) : Event → Bool → Ref → Ref → WrapState → Prop where
  /-- Arguments are fixed by the making of an object of a class. The class is instrumented if it is
  the instrumented class or derived from it. -/
  | bound {cls target made : Ref} {args : List Value} {keywords : Keyed String Value} {w' : World}
      (done : w.bind cls (some target) args keywords = .ok (w', made)) :
      w.Wraps (.bind cls (some target) args keywords) (w.heap.reports cls) target made .bound
  /-- A copy of an object with fixed arguments is made by making another object of its callable. -/
  | copied {deep : Bool} {r made : Ref} {p : PartialInfo} {w' : World}
      (found : w.heap.shape r = .partialOf p) (done : w.copy deep r = .ok (w', made)) :
      w.Wraps (.copy deep r) (w.heap.reports (w.copyingClass p.cls)) p.func made .bound
  /-- A callable is made to look like another one. -/
  | proxied {tracked : Bool} {wrapper wrapped made : Ref} {assigned updated : List String}
      (done : (w.imitate tracked wrapper wrapped assigned updated).2 = .ok made) :
      w.Wraps (.imitate tracked wrapper wrapped assigned updated) tracked wrapped made .proxy

variable {w w' : World} {id : Nat} {cls target result made r : Ref} {kind : WrapState}
  {instrumented : Bool} {e : Event}

/-! ### Calls of primitives -/

/-- A new object with fixed arguments is recorded by the installed tracker, if its class reports. -/
theorem Sound.tracker_bind (sound : w.Sound) {args : List Value} {keywords : Keyed String Value}
    (done : w.bind cls (some target) args keywords = .ok (w', made)) (id : Nat) :
    w'.tracker id =
      if w.heap.reports cls = true ∧ w.active = some id then (w.tracker id).wrap target made .bound
      else w.tracker id := by
  obtain ⟨f, hf, rfl, hcallable, -, rfl⟩ := bind_eq_ok_iff.mp done
  cases hf
  have hstate : (w.tracker id).state w.heap.size = .unwrapped :=
    Tracker.state_of_not_knows ((sound.within id).not_knows (Nat.le_refl _))
  have hwrap : (w.tracker id).wrap target w.heap.size .bound =
      (w.tracker id).put w.heap.size ((w.tracker id).source target)
        (WrapState.bound.union ((w.tracker id).state target).demote) := by
    rw [Tracker.wrap, WrapState.afterWrap, hstate, WrapState.demote_unwrapped,
      WrapState.union_unwrapped]
  cases hreports : w.heap.reports cls with
  | false =>
      rfl
  | true =>
      rw [if_pos rfl, sound.tracker_report_made (Heap.callable_of_fixing hcallable), hwrap]
      simp only [true_and]

theorem Sound.tracker_copy (sound : w.Sound) {deep : Bool} {p : PartialInfo}
    (found : w.heap.shape r = .partialOf p) (done : w.copy deep r = .ok (w', made)) (id : Nat) :
    w'.tracker id =
      if w.heap.reports (w.copyingClass p.cls) = true ∧ w.active = some id then
        (w.tracker id).wrap p.func made .bound
      else w.tracker id := by
  obtain ⟨-, -, hother⟩ | ⟨p', w₀, w₁, hp', hw₀, hbind, htrackers, -⟩ := copy_ok done
  · exact absurd found (hother p)
  · cases found.symm.trans hp'
    -- Looking at the dictionary before the copy changes nothing that matters here.
    have hstart : w₀.Sound ∧ w₀.heap.reports (w.copyingClass p.cls) =
        w.heap.reports (w.copyingClass p.cls) ∧ w₀.active = w.active ∧
        w₀.tracker id = w.tracker id := by
      obtain rfl | rfl := hw₀
      · exact ⟨sound, rfl, rfl, rfl⟩
      · refine ⟨sound.perform (.touch r), ?_, rfl, rfl⟩
        have hlineage := Heap.lineageFrom_congr (w.heap.shape_touchDict r) w.heap.size
          (w.copyingClass p.cls)
        simp only [Heap.reports, Heap.lineage, Heap.size_touchDict, hlineage]
    obtain ⟨hsound, hreports, hactive, htracker⟩ := hstart
    rw [tracker_congr htrackers, hsound.tracker_bind hbind, hreports, hactive, htracker]

/-- What an imitation that succeeds does: it is reported if it is tracked. -/
theorem imitate_of_ok {tracked : Bool} {wrapper wrapped : Ref} {assigned updated : List String}
    (done : (w.imitate tracked wrapper wrapped assigned updated).2 = .ok made) :
    made = wrapper ∧ (w.imitate tracked wrapper wrapped assigned updated).1 =
      if tracked then
        report { w with heap := (w.heap.imitate wrapper wrapped assigned updated).1 }
          wrapped wrapper .proxy
      else { w with heap := (w.heap.imitate wrapper wrapped assigned updated).1 } := by
  unfold imitate at done ⊢
  split at done
  next heap f hrun =>
      cases done
  next heap hrun =>
      cases done
      rw [hrun]
      exact ⟨rfl, rfl⟩

theorem Sound.tracker_imitate (sound : w.Sound) {tracked : Bool} {wrapper wrapped : Ref}
    {assigned updated : List String}
    (done : (w.imitate tracked wrapper wrapped assigned updated).2 = .ok made) (id : Nat) :
    made = wrapper ∧ (w.imitate tracked wrapper wrapped assigned updated).1.tracker id =
      if tracked = true ∧ w.active = some id then
        (w.tracker id).record (w.imitate tracked wrapper wrapped assigned updated).1.heap wrapped
          wrapper .proxy
      else w.tracker id := by
  obtain ⟨hmade, hworld⟩ := imitate_of_ok done
  refine ⟨hmade, ?_⟩
  rw [heap_imitate, hworld]
  cases tracked with
  | false =>
      rfl
  | true =>
      rw [if_pos rfl, tracker_report]
      by_cases hactive : w.active = some id
      · rw [if_pos ⟨hactive, sound.active id hactive⟩, if_pos ⟨rfl, hactive⟩]
        rfl
      · rw [if_neg fun h => hactive h.1, if_neg fun h => hactive h.2]
        rfl

/-- The calls of a primitive that is not instrumented are noticed by no tracker. -/
theorem Wraps.tracker_of_plain (wraps : w.Wraps e false target result kind) (sound : w.Sound)
    (id : Nat) : (w.perform e).tracker id = w.tracker id := by
  generalize hplain : false = instrumented at wraps
  cases wraps with
  | bound done =>
      rw [perform, done, sound.tracker_bind done, ← hplain]
      rfl
  | copied found done =>
      rw [perform, done, sound.tracker_copy found done, ← hplain]
      rfl
  | proxied done =>
      subst hplain
      exact (sound.tracker_imitate done id).2

/-- The calls of an instrumented primitive are noticed by the installed tracker and no other. -/
theorem Wraps.tracker_of_instrumented (wraps : w.Wraps e true target result kind) (sound : w.Sound)
    (distinct : result ≠ target) (callable : (w.perform e).heap.callable target = true)
    (referable : (w.perform e).heap.weaklyReferable result = true) (id : Nat) :
    (w.perform e).tracker id =
      if w.active = some id then (w.tracker id).wrap target result kind else w.tracker id := by
  generalize hinstrumented : true = instrumented at wraps
  cases wraps with
  | bound done =>
      rw [perform, done, sound.tracker_bind done, ← hinstrumented]
      simp only [true_and]
  | copied found done =>
      rw [perform, done, sound.tracker_copy found done, ← hinstrumented]
      simp only [true_and]
  | @proxied tracked wrapper wrapped made assigned updated done =>
      subst hinstrumented
      obtain ⟨rfl, htracker⟩ := sound.tracker_imitate done id
      have hrecord : (w.tracker id).record
          (w.imitate true result target assigned updated).1.heap target result .proxy =
            (w.tracker id).wrap target result .proxy :=
        Tracker.record_eq_wrap distinct callable referable
      rw [perform, htracker, hrecord]
      simp only [true_and]

/-! ### Who is installed -/

theorem Sound.partialClass_eq_iff (sound : w.Sound) :
    w.partialClass = Catalog.trackedPartialClass ↔ ∃ id, w.active = some id := by
  rw [World.partialClass, sound.usual]
  cases w.active with
  | none => exact ⟨nofun, nofun⟩
  | some id => exact ⟨fun _ => ⟨id, rfl⟩, fun _ => rfl⟩

theorem Sound.updateWrapper_eq_iff (sound : w.Sound) :
    w.updateWrapper = Catalog.trackedUpdateWrapper ↔ ∃ id, w.active = some id := by
  rw [World.updateWrapper, sound.usual]
  cases w.active with
  | none => exact ⟨nofun, nofun⟩
  | some id => exact ⟨fun _ => ⟨id, rfl⟩, fun _ => rfl⟩

/-- After any history, at most one tracker is installed. The instrumented primitives are under their
usual names exactly while one is, and only that one can be uninstalled. A call of an instrumented
primitive, however it was come by, is recorded by the tracker installed at the moment of the call,
if there is one, and by no other; a call of an original one is recorded by none. -/
theorem records_belong_to_installed (events : List Event) :
    let w := initial.run events
    (∀ id other, w.active = some id → w.active = some other → id = other) ∧
    (w.partialClass = Catalog.trackedPartialClass ↔
      w.updateWrapper = Catalog.trackedUpdateWrapper) ∧
    (w.partialClass = Catalog.trackedPartialClass ↔ ∃ id, w.active = some id) ∧
    (∀ id, w.active ≠ some id → w.perform (.uninstall id) = w) ∧
    ∀ e instrumented target result kind, w.Wraps e instrumented target result kind →
      (instrumented = false → ∀ id, (w.perform e).tracker id = w.tracker id) ∧
      (instrumented = true → result ≠ target → (w.perform e).heap.callable target = true →
        (w.perform e).heap.weaklyReferable result = true →
        (∀ id, w.active = some id → ((w.perform e).tracker id).Knows result ∧
          (w.perform e).tracker id = (w.tracker id).wrap target result kind) ∧
        ∀ id, w.active ≠ some id → (w.perform e).tracker id = w.tracker id) := by
  intro w
  have hsound : w.Sound := sound_run events
  have hclass := hsound.partialClass_eq_iff
  refine ⟨?_, hclass.trans hsound.updateWrapper_eq_iff.symm, hclass, ?_, ?_⟩
  · intro id other hid hother
    exact Option.some.inj (hid.symm.trans hother)
  · intro id hother
    exact uninstall_of_ne hother
  · intro e instrumented target result kind wraps
    constructor
    · rintro rfl id
      exact wraps.tracker_of_plain hsound id
    · rintro rfl distinct callable referable
      have htracker := wraps.tracker_of_instrumented hsound distinct callable referable
      constructor
      · intro id hactive
        have hwrap := (htracker id).trans (if_pos hactive)
        rw [hwrap]
        exact ⟨Tracker.knows_wrap _ target result kind, rfl⟩
      · intro id hother
        exact (htracker id).trans (if_neg hother)

/-- Two trackers, the second of which was installed after the first. -/
def handedOver : World := initial.run [.addTracker [], .uninstall mainTracker, .install 1]

/-- Arguments of a function are fixed with the instrumented class, which was come by earlier. -/
def fixedLater : Event := .bind Catalog.trackedPartialClass (some Catalog.updateWrapper) [] []

/-- The second tracker takes record of the object, the first one does not. -/
theorem records_belong_to_installed_handedOver :
    let made := handedOver.heap.size
    ((handedOver.perform fixedLater).tracker 1).Knows made ∧
    (handedOver.perform fixedLater).tracker mainTracker = handedOver.tracker mainTracker := by
  intro made
  have hreports : handedOver.heap.reports Catalog.trackedPartialClass = true :=
    (sound_run _).reports_tracked
  have hwraps : handedOver.Wraps fixedLater true Catalog.updateWrapper made .bound :=
    hreports ▸ .bound rfl
  obtain ⟨-, -, -, -, hcalls⟩ :=
    records_belong_to_installed [.addTracker [], .uninstall mainTracker, .install 1]
  obtain ⟨hinstalled, hothers⟩ := (hcalls _ _ _ _ _ hwraps).2 rfl (by decide +kernel)
    (by decide +kernel) (by decide +kernel)
  exact ⟨(hinstalled 1 rfl).1, hothers mainTracker (by decide +kernel)⟩

end World

end CallableKinds
