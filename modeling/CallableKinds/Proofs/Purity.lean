import CallableKinds.Proofs.Classification
import CallableKinds.Proofs.Memory
import CallableKinds.Proofs.Transparency
import CallableKinds.World.Call

/-!
# Classifications are questions

A classification fixes arguments for its probes and looks at the dictionary of the source, and it may
end anywhere: at an object that is not callable, for want of a source text, at brackets that do not
close, at a probe, or at a rule. Wherever it ends, the trackers have the records that they had, the
same one is active, and the same primitives are under their usual names.
-/

namespace CallableKinds

namespace World

/-- The trackers of a later world have the same records, the same one is active, and the primitives
are the same. -/
structure SameTracking (w w' : World) : Prop where
  numbered : w'.trackers.length = w.trackers.length
  sources : ∀ id, (w'.tracker id).sources = (w.tracker id).sources
  states : ∀ id, (w'.tracker id).states = (w.tracker id).states
  active : w'.active = w.active
  usual : w'.usual = w.usual

namespace SameTracking

variable {w w' w'' : World}

theorem refl (w : World) : w.SameTracking w :=
  ⟨rfl, fun _ => rfl, fun _ => rfl, rfl, rfl⟩

theorem trans (first : w.SameTracking w') (later : w'.SameTracking w'') : w.SameTracking w'' where
  numbered := later.numbered.trans first.numbered
  sources id := (later.sources id).trans (first.sources id)
  states id := (later.states id).trans (first.states id)
  active := later.active.trans first.active
  usual := later.usual.trans first.usual

/-- Objects and attributes are no matter of the trackers. -/
theorem withHeap (w : World) (heap : Heap) : w.SameTracking { w with heap } :=
  ⟨rfl, fun _ => rfl, fun _ => rfl, rfl, rfl⟩

/-- An interception costs a tracker at most the next entry of its script. -/
theorem intercept (w : World) (id : Nat) :
    w.SameTracking (w.withTracker id fun t => t.intercept.2) where
  numbered := length_trackers_withTracker w id _
  sources other := by
    rw [tracker_withTracker]
    split
    · exact Tracker.sources_intercept _
    · rfl
  states other := by
    rw [tracker_withTracker]
    split
    · exact Tracker.states_intercept _
    · rfl
  active := rfl
  usual := rfl

theorem probe (w : World) (id : Nat) (p : Probe) (subject : Ref) :
    w.SameTracking (w.probe id p subject).2 :=
  (withHeap w _).trans (intercept _ id)

end SameTracking

/-- Fixing arguments for an interception is reported to nobody, also while the instrumented
primitives are under their usual names. -/
theorem Sound.sameTracking_bindUnwrapped {w : World} (sound : w.Sound) (id : Nat) (func : Ref)
    (a : Arguments) : w.SameTracking (w.bindUnwrapped id func a).1 := by
  have asked : (w.withTracker id fun t => t.intercept.2).Sound := sound.perform (.intercept id)
  rw [bindUnwrapped]
  split
  · exact .refl w
  · refine (SameTracking.intercept w id).trans ?_
    dsimp only
    split
    · split
      next made bound =>
          obtain ⟨-, -, same⟩ := asked.bind_plain_iff.mp bound
          rw [same]
          exact .withHeap _ _
      next => exact .refl _
    · exact .withHeap _ _
    · exact .withHeap _ _

/-- An object that is made for the interception of a probe leaves the trackers as the probe does. -/
theorem Sound.trackers_bindUnwrapped {w : World} (sound : w.Sound) (id : Nat) (p : Probe)
    (func subject : Ref) :
    (w.bindUnwrapped id func ⟨[.object subject], []⟩).1.trackers =
      (w.probe id p subject).2.trackers := by
  have asked : (w.withTracker id fun t => t.intercept.2).Sound := sound.perform (.intercept id)
  rw [bindUnwrapped]
  split
  next name reserved => cases reserved
  next =>
      dsimp only
      split
      · split
        next made bound =>
            obtain ⟨-, -, same⟩ := asked.bind_plain_iff.mp bound
            rw [same]
            rfl
        next => rfl
      · rfl
      · rfl

end World

namespace Inquiry

theorem keptByRequests_sameTracking (w : World) :
    KeptByRequests fun q => w.SameTracking q.world where
  text _ _ same := same
  classifier _ _ same := same
  probe _ id p r same := same.trans (.probe _ id p r)

/-- With genuine interceptions a classification changes nothing but the heap. -/
theorem trackers_classify_of_genuine {q : Inquiry} (genuine : q.tracker.Genuine)
    (candidate : Ref) : (outcome (classify candidate) q).2.world.trackers = q.world.trackers := by
  have ended := classified q candidate
  generalize run : outcome (classify candidate) q = final at ended ⊢
  cases ended with
  | uncallable => rfl
  | textless => rfl
  | unscanned => rfl
  | studied callable answered known studied =>
      obtain ⟨-, asked, genuinely⟩ := outcome_classify_of_genuine genuine callable answered known
      rw [← run, genuinely]
      rfl

/-- Whatever has happened before, and wherever it ends, a classification leaves all trackers their
records, leaves the same tracker active and the same primitives under their usual names. Of the
trackers themselves nothing changes at all if the interceptions of the classifier are genuine. The
objects that are made for the interceptions leave no trace either, whichever tracker they are asked
of. -/
theorem classify_keeps_tracking (events : List Event) (normalizer : Normalizer)
    (classifier : Classifier) (asked : List Ref) (candidate : Ref) :
    let q : Inquiry := ⟨World.initial.run events, normalizer, classifier, asked⟩
    let w := (outcome (classify candidate) q).2.world
    q.world.SameTracking w ∧
      (q.tracker.Genuine → w.trackers = q.world.trackers) ∧
      (∀ id func a, q.world.SameTracking (q.world.bindUnwrapped id func a).1) ∧
      ∀ id p func subject,
        (q.world.bindUnwrapped id func ⟨[.object subject], []⟩).1.trackers =
          (q.world.probe id p subject).2.trackers := by
  intro q w
  have sound : q.world.Sound := World.sound_run events
  have same : q.world.SameTracking w :=
    (keptByRequests_sameTracking q.world).classify candidate q (.refl _)
  refine ⟨same, ?_, ?_, ?_⟩
  · intro genuine
    exact trackers_classify_of_genuine genuine candidate
  · intro id func a
    exact sound.sameTracking_bindUnwrapped id func a
  · intro id p func subject
    exact sound.trackers_bindUnwrapped id p func subject

/-- A tracker that takes no record but refuses the first interception. -/
def refusal : List Event := World.wrappedTwice ++
  [.addTracker [.fail (.ofMessage (.standard "ValueError") "no")]]

/-- A classifier over this tracker. -/
def refusedInquiry : Inquiry :=
  ⟨World.initial.run refusal, .standard, .make 1 Rule.standard, []⟩

/-- The error of an interception ends a classification, and the main tracker keeps its record. -/
theorem classify_keeps_tracking_refusal :
    (outcome (classify Catalog.trackedUpdateWrapper) refusedInquiry).1.toOption = none ∧
      ((outcome (classify Catalog.trackedUpdateWrapper) refusedInquiry).2.world.tracker
        World.mainTracker).sizes = (1, 1) := by
  obtain ⟨same, -⟩ := classify_keeps_tracking refusal .standard (.make 1 Rule.standard) []
    Catalog.trackedUpdateWrapper
  have sizes := congrArg₂ (fun sources states : Nat => (sources, states))
    (congrArg (fun t => t.entries.length) (same.sources World.mainTracker))
    (congrArg (fun t => t.entries.length) (same.states World.mainTracker))
  refine ⟨by decide +kernel, sizes.trans ?_⟩
  decide +kernel

end Inquiry

end CallableKinds
