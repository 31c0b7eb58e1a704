import CallableKinds.Classifier.Study
import CallableKinds.Proofs.Readers

/-!
# Studies of an object

The first probe of a study looks at the dictionary of the object, which may give it one. No other
part of a study changes the world, as long as the interceptions of the tracker are genuine, and what
was looked at before does not look different the second time.
-/

namespace CallableKinds

namespace Heap

variable {h : Heap} {r s : Ref}

theorem exists_shape_of_isPartial (found : h.isPartial r = true) :
    ∃ p, h.shape r = .partialOf p := by
  rw [isPartial] at found
  split at found
  next p hp => exact ⟨p, hp⟩
  next => cases found

theorem isSome_dict_withDict (hr : r < h.size) : ((h.withDict r).object r).dict.isSome = true := by
  rw [withDict]
  split
  next hsome => exact hsome
  next =>
      obtain ⟨o, ho⟩ : ∃ o, h.objects[r]? = some o := ⟨_, List.getElem?_eq_getElem hr⟩
      simp [object, ho]

/-- Looking at a dictionary once more changes nothing. -/
@[simp] theorem touchDict_touchDict (h : Heap) (r : Ref) :
    (h.touchDict r).touchDict r = h.touchDict r := by
  cases hpartial : h.isPartial r with
  | false =>
      simp [touchDict, hpartial]
  | true =>
      obtain ⟨p, hp⟩ := exists_shape_of_isPartial hpartial
      have hr : r < h.size := lt_size_of_shape (by simp [hp])
      have hlater : (h.withDict r).isPartial r = true := by
        rw [isPartial, shape_withDict, hp]
      have hsome := isSome_dict_withDict hr
      simp only [touchDict, hpartial, if_true, hlater]
      rw [withDict, if_pos hsome]

end Heap

namespace Probe

/-- Having been looked at makes no difference to a probe. -/
theorem attempt_touchDict (h : Heap) (r : Ref) (p : Probe) :
    (p.attempt (h.touchDict r) r).outcome (h.touchDict r) r = (p.attempt h r).outcome h r := by
  have alike := Heap.Alike.touchDict h r
  rw [alike.attempt, alike.outcome]

end Probe

/-- A tracker that has nothing in place of the interceptions that are asked of it. -/
def Tracker.Genuine (t : Tracker) : Prop := t.script = []

namespace World

variable {w : World} {id : Nat}

/-- A genuine probe carries out its attempt, and leaves nothing behind but a look. -/
theorem probe_of_genuine (genuine : (w.tracker id).Genuine) (p : Probe) (r : Ref) :
    w.probe id p r = (p.conclude ((p.attempt w.heap r).outcome w.heap r),
      { w with heap := p.touch w.heap r }) := by
  have hintercept : (w.tracker id).intercept = (.genuine, w.tracker id) := by
    rw [Tracker.intercept, show (w.tracker id).script = [] from genuine]
  have htrackers : w.trackers.modify id (fun t => t.intercept.2) = w.trackers := by
    apply List.ext_getElem?
    intro i
    rw [List.getElem?_modify]
    cases found : w.trackers[i]? with
    | none => rfl
    | some t =>
        by_cases hid : id = i
        · subst hid
          have ht : w.tracker id = t := by rw [tracker, found, Option.getD_some]
          rw [ht] at hintercept
          simp [hintercept]
        · simp [hid]
  simp only [probe, hintercept, withTracker, htrackers]

/-- The world after an object was looked at. -/
def touched (w : World) (r : Ref) : World := { w with heap := w.heap.touchDict r }

end World

namespace Study

variable {α β : Type}

theorem outcome_ask (p : Probe) (s : Study) :
    outcome (ask p) s =
      match s.world.probe s.tracker p s.subject with
      | (.ok verdict, world) => ({ s with world }.conclude p verdict, { s with world })
      | (.error f, world) => (.error f, { s with world }) := by
  rw [ask]
  rw [outcome_bind, outcome_get]
  dsimp only
  generalize s.world.probe s.tracker p s.subject = probed
  obtain ⟨f | verdict, world⟩ := probed
  · rfl
  · change outcome (do
      set { s with world }
      liftM ({ s with world }.conclude p verdict) : Finding Bool) s = _
    rw [outcome_bind]
    exact outcome_lift ({ s with world }.conclude p verdict) { s with world }

/-- What is decided already is found without a probe; else what the probe finds is kept. -/
theorem outcome_isConstructor (s : Study) :
    outcome isConstructor s =
      match s.constructor with
      | some known => (.ok known, s)
      | none =>
        match outcome (ask .constructible) s with
        | (.ok found, s') => (.ok found, { s' with constructor := some found })
        | (.error f, s') => (.error f, s') := by
  rw [isConstructor]
  rw [outcome_bind, outcome_get]
  dsimp only
  cases s.constructor with
  | some known => rfl
  | none =>
      dsimp only
      rw [outcome_bind]
      rcases outcome (ask .constructible) s with ⟨f | found, s'⟩ <;> rfl

theorem outcome_isClass (s : Study) :
    outcome isClass s =
      match s.classStatement with
      | some known => (.ok known, s)
      | none =>
        if s.hasClassHead then
          match outcome (ask .constructsOnly) s with
          | (.ok found, s') => (.ok found, { s' with classStatement := some found })
          | (.error f, s') => (.error f, s')
        else (.ok false, { s with classStatement := some false }) := by
  rw [isClass, outcome_bind, outcome_get]
  dsimp only
  cases s.classStatement with
  | some known => rfl
  | none =>
      dsimp only
      cases s.hasClassHead with
      | false => rfl
      | true =>
          rw [if_pos rfl, if_pos rfl, outcome_bind]
          rcases outcome (ask .constructsOnly) s with ⟨f | found, s'⟩ <;> rfl

/-! ### What the parts of a study keep -/

section Keeps

variable {P : Study → Prop}

/-- Whether the object constructs others is found with one probe at most, and noted. -/
theorem keeps_isConstructor (asks : Keeps P (ask .constructible))
    (notes : ∀ s found, P s → P { s with constructor := some found }) : Keeps P isConstructor := by
  apply Keeps.get_bind
  intro s holds
  split
  next => exact holds
  next =>
      have hnote : ∀ found : Bool, Keeps P (do
          modify fun s => { s with constructor := some found }
          return found : Finding Bool) :=
        fun found => (Keeps.change fun s => notes s found).bind fun _ => Keeps.pure found
      exact asks.bind hnote s holds

/-- Whether a class statement made the object is found with one probe at most, and noted. -/
theorem keeps_isClass (asks : Keeps P (ask .constructsOnly))
    (notes : ∀ s found, P s → P { s with classStatement := some found }) : Keeps P isClass := by
  have hnote : ∀ found : Bool, Keeps P (do
      modify fun s => { s with classStatement := some found }
      return found : Finding Bool) :=
    fun found => (Keeps.change fun s => notes s found).bind fun _ => Keeps.pure found
  apply Keeps.get_bind
  intro s holds
  split
  next known _ => exact holds
  next =>
      dsimp only
      split
      · exact asks.bind hnote s holds
      · exact (Keeps.pure false).bind hnote s holds

theorem keeps_isClassic (constructor : Keeps P isConstructor) (cls : Keeps P isClass) :
    Keeps P isClassic := by
  refine constructor.bind fun constructs => ?_
  split
  · exact cls.bind fun found => Keeps.pure (!found)
  · exact Keeps.pure false

theorem keeps_isMemberMethod (cls : Keeps P isClass) : Keeps P isMemberMethod := by
  apply Keeps.get_bind
  intro s holds
  split
  · exact holds
  · refine cls.bind (fun found => ?_) s holds
    split
    · exact Keeps.pure false
    · apply Keeps.get_bind
      intro s'
      exact (Keeps.lift s'.routine).bind (fun routine => Keeps.pure _) s'

end Keeps

/-! ### What studies change of a world -/

/-- A property of worlds that no probe ends. -/
def KeptByProbes (P : World → Prop) : Prop :=
  ∀ (w : World) (id : Nat) (p : Probe) (r : Ref), P w → P (w.probe id p r).2

section Probes

variable {P : World → Prop} (kept : KeptByProbes P)

include kept

theorem keeps_ask_of_probes (p : Probe) : Keeps (fun s => P s.world) (ask p) := by
  intro s holds
  have hprobed := kept s.world s.tracker p s.subject holds
  rw [outcome_ask]
  generalize s.world.probe s.tracker p s.subject = probed at hprobed ⊢
  obtain ⟨f | verdict, world⟩ := probed
  · exact hprobed
  · exact hprobed

theorem keeps_isConstructor_of_probes : Keeps (fun s => P s.world) isConstructor :=
  keeps_isConstructor (keeps_ask_of_probes kept .constructible) fun _ _ holds => holds

theorem keeps_isClass_of_probes : Keeps (fun s => P s.world) isClass :=
  keeps_isClass (keeps_ask_of_probes kept .constructsOnly) fun _ _ holds => holds

theorem keeps_property_of_probes {name : String} {find : Finding Bool}
    (named : property? name = some find) : Keeps (fun s => P s.world) find := by
  have hconstructor := keeps_isConstructor_of_probes kept
  have hclass := keeps_isClass_of_probes kept
  unfold property? at named
  split at named
  all_goals cases named
  · exact hconstructor
  · exact hclass
  · exact keeps_isClassic hconstructor hclass
  · exact Keeps.get_bind fun s holds => holds
  · apply Keeps.get_bind
    intro s holds
    rw [outcome_lift]
    exact holds
  · exact keeps_isMemberMethod hclass
  · apply Keeps.get_bind
    intro s holds
    rw [outcome_lift]
    exact holds

end Probes

/-- A study in a world whose object was probed already, by genuine attempts. -/
structure Settled (w : World) (s : Study) : Prop where
  world : s.world = w
  genuine : (s.world.tracker s.tracker).Genuine
  decided : s.constructor.isSome = true

theorem keeps_settled_isConstructor (w : World) : Keeps (Settled w) isConstructor := by
  intro s settled
  obtain ⟨known, hknown⟩ := Option.isSome_iff_exists.mp settled.decided
  rw [outcome_isConstructor, hknown]
  exact settled

theorem keeps_settled_isClass (w : World) : Keeps (Settled w) isClass := by
  refine keeps_isClass (fun s settled => ?_) fun s found settled =>
    ⟨settled.world, settled.genuine, settled.decided⟩
  rw [outcome_ask, World.probe_of_genuine settled.genuine]
  cases Probe.conclude .constructsOnly
    ((Probe.attempt s.world.heap s.subject .constructsOnly).outcome s.world.heap s.subject) with
  | error f =>
      exact ⟨settled.world, settled.genuine, settled.decided⟩
  | ok verdict =>
      exact ⟨settled.world, settled.genuine, settled.decided⟩

/-! ### The first probe -/

/-- The study of an object that was looked at. -/
def looked (s : Study) : Study := { s with world := s.world.touched s.subject }

theorem outcome_ask_constructible {s : Study} (genuine : (s.world.tracker s.tracker).Genuine) :
    (outcome (ask .constructible) s).2 = s.looked ∧
    outcome (ask .constructible) s.looked = outcome (ask .constructible) s := by
  have hgenuine : (s.looked.world.tracker s.looked.tracker).Genuine := genuine
  have hattempt := Probe.attempt_touchDict s.world.heap s.subject .constructible
  have hheap : Probe.touch (s.world.heap.touchDict s.subject) s.subject .constructible =
      s.world.heap.touchDict s.subject := Heap.touchDict_touchDict ..
  rw [outcome_ask, outcome_ask, World.probe_of_genuine genuine, World.probe_of_genuine hgenuine]
  simp only [looked, World.touched, hattempt, hheap]
  cases Probe.conclude .constructible
    ((Probe.attempt s.world.heap s.subject .constructible).outcome s.world.heap s.subject) with
  | error f => exact ⟨rfl, rfl⟩
  | ok verdict => exact ⟨rfl, rfl⟩

/-- What begins with the first probe leaves nothing behind but a look at the object, and comes to
the same for an object that was looked at. -/
theorem outcome_isConstructor_bind {s : Study} (genuine : (s.world.tracker s.tracker).Genuine)
    (undecided : s.constructor = none) {next : Bool → Finding α}
    (later : ∀ w b, Keeps (Settled w) (next b)) :
    (outcome (isConstructor >>= next) s).2.world = s.world.touched s.subject ∧
    outcome (isConstructor >>= next) s.looked = outcome (isConstructor >>= next) s := by
  obtain ⟨hlooked, hagain⟩ := outcome_ask_constructible genuine
  have hundecided : s.looked.constructor = none := undecided
  have hsame : outcome isConstructor s.looked = outcome isConstructor s := by
    rw [outcome_isConstructor, outcome_isConstructor, undecided, hundecided, hagain]
  refine ⟨?_, by rw [outcome_bind, outcome_bind, hsame]⟩
  rw [outcome_bind, outcome_isConstructor, undecided]
  generalize outcome (ask .constructible) s = asked at hlooked ⊢
  obtain ⟨f | found, s'⟩ := asked
  · exact congrArg Study.world hlooked
  · have hs' : s' = s.looked := hlooked
    subst hs'
    exact (later _ found { s.looked with constructor := some found } ⟨rfl, genuine, rfl⟩).world

end Study

end CallableKinds
