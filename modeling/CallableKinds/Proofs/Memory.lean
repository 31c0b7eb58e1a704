import CallableKinds.Proofs.Chain
import CallableKinds.Proofs.Ownership

/-!
# What trackers never forget

A wrap that is recorded overwrites all that was known of its result. Nothing of the past is lost by
that: what the target and the result were is among what the new result was, and no event makes a
tracker forget what a living callable was.
-/

namespace CallableKinds

namespace WrapState

variable {s t u : WrapState}

/-- What a callable was before one state it was before the other. -/
structure Retains (t s : WrapState) : Prop where
  proxy : s.wasProxy = true → t.wasProxy = true
  bound : s.wasBound = true → t.wasBound = true

/-- What a callable is or was in one state it was before the other. -/
structure Recalls (t s : WrapState) : Prop where
  proxy : s.isProxy = true ∨ s.wasProxy = true → t.wasProxy = true
  bound : s.isBound = true ∨ s.wasBound = true → t.wasBound = true

namespace Retains

theorem refl (s : WrapState) : s.Retains s := ⟨id, id⟩

theorem trans (later : u.Retains t) (first : t.Retains s) : u.Retains s where
  proxy was := later.proxy (first.proxy was)
  bound was := later.bound (first.bound was)

theorem recalls (later : u.Retains t) (first : t.Recalls s) : u.Recalls s where
  proxy known := later.proxy (first.proxy known)
  bound known := later.bound (first.bound known)

end Retains

theorem Recalls.retains (recalls : t.Recalls s) : t.Retains s where
  proxy was := recalls.proxy (Or.inr was)
  bound was := recalls.bound (Or.inr was)

/-- A wrap recalls what its target was. -/
theorem recalls_target (kind target result : WrapState) :
    (afterWrap kind target result).Recalls target where
  proxy known := by
    obtain is | was := known
    · simp [afterWrap, union, demote, is]
    · simp [afterWrap, union, demote, was]
  bound known := by
    obtain is | was := known
    · simp [afterWrap, union, demote, is]
    · simp [afterWrap, union, demote, was]

/-- A wrap recalls what its result was before. -/
theorem recalls_result (kind target result : WrapState) :
    (afterWrap kind target result).Recalls result where
  proxy known := by
    obtain is | was := known
    · simp [afterWrap, union, demote, is]
    · simp [afterWrap, union, demote, was]
  bound known := by
    obtain is | was := known
    · simp [afterWrap, union, demote, is]
    · simp [afterWrap, union, demote, was]

end WrapState

namespace World

/-- A tracker takes record of a wrap in an event: an instrumented primitive made it while the tracker
was installed, or the tracker was told of it. -/
structure Records (w : World) (id : Nat) (e : Event) (target result : Ref) (kind : WrapState) :
    Prop where
  told : (w.Wraps e true target result kind ∧ w.active = some id) ∨
    (e = .record id target result kind ∧ id < w.trackers.length)
  distinct : result ≠ target
  callable : (w.perform e).heap.callable target = true
  referable : (w.perform e).heap.weaklyReferable result = true

variable {w : World} {id : Nat} {target result x : Ref} {kind : WrapState} {e : Event}

theorem Records.tracker (records : w.Records id e target result kind) (sound : w.Sound) :
    (w.perform e).tracker id = (w.tracker id).wrap target result kind := by
  obtain ⟨hwraps, hactive⟩ | ⟨rfl, hid⟩ := records.told
  · have htracker := hwraps.tracker_of_instrumented sound records.distinct records.callable
      records.referable id
    rw [htracker, if_pos hactive]
  · change (w.record id target result kind).tracker id = _
    rw [tracker_record, if_pos ⟨rfl, hid⟩]
    exact Tracker.record_eq_wrap records.distinct records.callable records.referable

/-- What a record makes of its result. -/
theorem Records.recalls (records : w.Records id e target result kind) (sound : w.Sound) :
    (((w.perform e).tracker id).state result).Recalls ((w.tracker id).state result) ∧
    (((w.perform e).tracker id).state result).Recalls ((w.tracker id).state target) := by
  rw [records.tracker sound, Tracker.wrap, Tracker.state_put_self]
  constructor
  · apply WrapState.recalls_result
  · apply WrapState.recalls_target

theorem retains_wrap (t : Tracker) (target result : Ref) (kind : WrapState) (x : Ref) :
    ((t.wrap target result kind).state x).Retains (t.state x) := by
  rw [Tracker.wrap]
  by_cases hx : x = result
  · subst hx
    rw [Tracker.state_put_self]
    exact (WrapState.recalls_result kind _ _).retains
  · rw [Tracker.state_put_of_ne hx]
    apply WrapState.Retains.refl

/-- No event makes a tracker forget what an object was that outlives it. -/
theorem Sound.retains_perform (sound : w.Sound) (id : Nat) (outlives : ¬ e.Ends x) :
    (((w.perform e).tracker id).state x).Retains ((w.tracker id).state x) := by
  cases noted_perform w id e with
  | unchanged sources states =>
      rw [Tracker.state, states]
      apply WrapState.Retains.refl
  | perished alive perish pruned =>
      subst perish
      have halive : alive x = true := by
        simpa [Event.Ends] using outlives
      rw [pruned, (sound.within id).state_prune halive]
      apply WrapState.Retains.refl
  | fresh target kind fixes known made recorded =>
      rw [recorded]
      apply retains_wrap
  | rewrapped target result kind rewraps recorded =>
      rw [recorded]
      apply retains_wrap

theorem Sound.retains_run (sound : w.Sound) (id : Nat) {later : List Event}
    (outlives : ∀ e ∈ later, ¬ e.Ends x) :
    (((w.run later).tracker id).state x).Retains ((w.tracker id).state x) := by
  induction later generalizing w with
  | nil =>
      apply WrapState.Retains.refl
  | cons e rest ih =>
      have hfirst := sound.retains_perform id (outlives e List.mem_cons_self)
      have hrest := ih (sound.perform e) fun e' member =>
        outlives e' (List.mem_cons_of_mem e member)
      exact hrest.trans hfirst

/-- What an object was it remains for every tracker as long as it lives, whatever happens. After a
wrap that a tracker takes record of, all that the result was or had become before is among what it
was, and so is all that the target is or was, and that for good. -/
theorem states_retain_history (events : List Event) (id : Nat) :
    let w := initial.run events
    (∀ x later, (∀ e ∈ later, ¬ e.Ends x) →
      (((w.run later).tracker id).state x).Retains ((w.tracker id).state x)) ∧
    ∀ e target result kind later, w.Records id e target result kind →
      (∀ e ∈ later, ¬ e.Ends result) →
      ((((w.perform e).run later).tracker id).state result).Recalls
          ((w.tracker id).state result) ∧
        ((((w.perform e).run later).tracker id).state result).Recalls
          ((w.tracker id).state target) := by
  intro w
  have hsound : w.Sound := sound_run events
  constructor
  · intro x later outlives
    exact hsound.retains_run id outlives
  · intro e target result kind later records outlives
    obtain ⟨hresult, htarget⟩ := records.recalls hsound
    have hlater := (hsound.perform e).retains_run id outlives
    exact ⟨hlater.recalls hresult, hlater.recalls htarget⟩

/-- The instrumented function is made to look like the plain one, then like the plain one again. -/
def wrappedTwice : List Event :=
  let wraps := .imitate true Catalog.trackedUpdateWrapper Catalog.updateWrapper
    Heap.usualNames [Heap.dictName]
  [wraps, wraps]

/-- Wrapped in place for the second time, the function was a proxy, even when the tracker is
uninstalled. -/
theorem states_retain_history_wrappedTwice :
    ((((initial.run wrappedTwice).run [.uninstall mainTracker]).tracker mainTracker).state
      Catalog.trackedUpdateWrapper).wasProxy = true := by
  let wraps := Event.imitate true Catalog.trackedUpdateWrapper Catalog.updateWrapper
    Heap.usualNames [Heap.dictName]
  have hrecords : (initial.run [wraps]).Records mainTracker wraps Catalog.updateWrapper
      Catalog.trackedUpdateWrapper .proxy :=
    ⟨Or.inl ⟨.proxied rfl, rfl⟩, by decide, by decide +kernel, by decide +kernel⟩
  obtain ⟨-, hwraps⟩ := states_retain_history [wraps] mainTracker
  have hrecalls := (hwraps _ _ _ _ [.uninstall mainTracker] hrecords (by simp [Event.Ends])).1
  exact hrecalls.proxy (Or.inl (by decide +kernel))

end World

end CallableKinds
