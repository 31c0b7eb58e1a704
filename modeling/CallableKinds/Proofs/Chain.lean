import CallableKinds.Proofs.Transparency

/-!
# Chains of wraps

A chain of wraps is built on a callable while a tracker is active, and anything else may happen in
between. All that a tracker tells of the last link depends on two things: the callable at the
beginning, and the kinds of the wraps.
-/

namespace CallableKinds

/-- The two kinds of wraps. -/
inductive WrapKind where
  | bound
  | proxy
  deriving Repr, DecidableEq

/-- A link of a chain: an object, and the kind of the wrap that made it. -/
structure Link where
  object : Ref
  kind : WrapKind
  deriving Repr, DecidableEq

namespace WrapKind

/-- The state after a wrap of a callable without history. -/
def state : WrapKind → WrapState
  | bound => .bound
  | proxy => .proxy

end WrapKind

namespace Link

/-- The last object of a chain on a callable. -/
def last (f : Ref) : List Link → Ref
  | [] => f
  | link :: _ => link.object

/-- Whether a link of a chain has a kind. -/
def anyOf (kind : WrapKind) (links : List Link) : Bool := links.any fun link => link.kind == kind

/-- What is known of the wraps of a chain: what the last of them was, and what the others were. -/
def state : List Link → WrapState
  | [] => .unwrapped
  | link :: earlier =>
    ⟨link.kind == .proxy, link.kind == .bound, anyOf .proxy earlier, anyOf .bound earlier⟩

/-- A further wrap turns what is into what was. -/
theorem state_cons (link : Link) (earlier : List Link) :
    state (link :: earlier) = link.kind.state.union (state earlier).demote := by
  obtain ⟨object, kind⟩ := link
  cases earlier with
  | nil =>
      cases kind <;> rfl
  | cons previous before =>
      obtain ⟨object', kind'⟩ := previous
      cases kind <;> cases kind' <;>
        simp [state, anyOf, WrapKind.state, WrapState.bound, WrapState.proxy, WrapState.union,
          WrapState.demote, Bool.or_comm]

/-- No wrap is of both kinds. -/
theorem state_exclusive (links : List Link) :
    ((state links).isProxy && (state links).isBound) = false := by
  cases links with
  | nil => rfl
  | cons link earlier =>
      obtain ⟨object, kind⟩ := link
      cases kind <;> rfl

end Link

namespace Event

/-- An event makes an object that was there before the result of a wrap that is reported. -/
def WrapsInPlace (r : Ref) : Event → Prop
  | .imitate true wrapper _ _ _ => wrapper = r
  | .record _ _ result _ => result = r
  | _ => False

/-- An object does not outlive an event. -/
def Ends (r : Ref) : Event → Prop
  | .perish alive => alive r = false
  | _ => False

end Event

namespace World

/-- A chain of wraps is built on a callable that a tracker has no record of. The tracker is active
whenever a link is made: by fixing arguments of the link before it, or by making another callable,
one that the tracker has no record of either, look like that link. In between anything may happen
except that the callable or a link is made the result of another wrap, or that the last link dies. -/
inductive Chain (id : Nat) (f : Ref) : World → List Link → Prop where
  | start (events : List Event) (callable : (initial.run events).heap.callable f = true)
      (unknown : ¬ ((initial.run events).tracker id).Knows f) :
      Chain id f (initial.run events) []
  | bound {w w' : World} {links : List Link} {args : List Value} {keywords : Keyed String Value}
      {made : Ref} (chain : Chain id f w links) (active : w.active = some id)
      (done : w.bind w.partialClass (some (Link.last f links)) args keywords = .ok (w', made)) :
      Chain id f w' (⟨made, .bound⟩ :: links)
  | proxy {w w' : World} {links : List Link} {wrapper : Ref} {assigned updated : List String}
      (chain : Chain id f w links) (active : w.active = some id)
      (callable : w.heap.callable wrapper = true)
      (referable : w.heap.weaklyReferable wrapper = true)
      (unknown : ¬ (w.tracker id).Knows wrapper)
      (apart : wrapper ∉ f :: links.map Link.object)
      (done : w.imitate w.instrumented wrapper (Link.last f links) assigned updated =
        (w', .ok wrapper)) :
      Chain id f w' (⟨wrapper, .proxy⟩ :: links)
  | other {w : World} {links : List Link} (chain : Chain id f w links) (e : Event)
      (spares : ∀ r ∈ f :: links.map Link.object, ¬ e.WrapsInPlace r)
      (outlived : ¬ e.Ends (Link.last f links)) :
      Chain id f (w.perform e) links

/-- What holds along a chain: the tracker has no record of the callable at its beginning, and tells
of the last link that callable and the kinds of all wraps. -/
structure Traced (w : World) (id : Nat) (f : Ref) (links : List Link) : Prop where
  sound : w.Sound
  callable : w.heap.callable f = true
  callableLast : w.heap.callable (Link.last f links) = true
  unknown : ¬ (w.tracker id).Knows f
  source : (w.tracker id).source (Link.last f links) = f
  state : (w.tracker id).state (Link.last f links) = Link.state links

variable {w w' : World} {id : Nat} {f made wrapper : Ref} {links : List Link}
  {args : List Value} {keywords : Keyed String Value} {assigned updated : List String}

/-- An event gives a tracker a record of no other object than the result of a wrap. -/
theorem knows_of_knows_perform {e : Event} {r : Ref} (sound : w.Sound)
    (knows : ((w.perform e).tracker id).Knows r) :
    (w.tracker id).Knows r ∨ e.WrapsInPlace r ∨ (e.Fixes ∧ r = w.heap.size) := by
  have hput : ∀ (result source : Ref) (state : WrapState),
      ((w.tracker id).put result source state).Knows r → r ≠ result → (w.tracker id).Knows r :=
    fun result source state hknows hne => (Tracker.knows_put_of_ne hne).mp hknows
  cases noted_perform w id e with
  | unchanged sources states =>
      rw [Tracker.Knows, sources, states] at knows
      exact Or.inl knows
  | perished alive perish pruned =>
      rw [pruned] at knows
      exact Or.inl ((sound.within id).knows_of_knows_prune knows)
  | fresh target kind fixes known made recorded =>
      rw [recorded] at knows
      by_cases hr : r = w.heap.size
      · exact Or.inr (Or.inr ⟨fixes, hr⟩)
      · exact Or.inl (hput _ _ _ knows hr)
  | rewrapped target result kind rewraps recorded =>
      rw [recorded] at knows
      by_cases hr : r = result
      · subst hr
        refine Or.inr (Or.inl ?_)
        rcases rewraps.wraps with ⟨assigned, updated, rfl, -⟩ | rfl
        · rfl
        · rfl
      · exact Or.inl (hput _ _ _ knows hr)

/-- Along a history, a tracker comes to know of an object only by a wrap that the object is the
result of. -/
theorem exists_wrap_of_knows (sound : w.Sound) {events : List Event} {r : Ref}
    (knows : ((w.run events).tracker id).Knows r) :
    (w.tracker id).Knows r ∨
    ∃ before e later, events = before ++ e :: later ∧
      (e.WrapsInPlace r ∨ (e.Fixes ∧ r = (w.run before).heap.size)) := by
  induction events generalizing w with
  | nil =>
      exact Or.inl knows
  | cons e rest ih =>
      rcases ih (sound.perform e) knows with hnext | ⟨before, e', later, rfl, hwrap⟩
      · rcases knows_of_knows_perform sound hnext with hknown | hwrap
        · exact Or.inl hknown
        · exact Or.inr ⟨[], e, rest, rfl, hwrap⟩
      · exact Or.inr ⟨e :: before, e', later, rfl, hwrap⟩

/-- What was never the result of a wrap has no record in any tracker. -/
theorem not_knows_of_no_wrap {events : List Event} {r : Ref}
    (untouched : ∀ before e later, events = before ++ e :: later →
      ¬ e.WrapsInPlace r ∧ (e.Fixes → r ≠ (initial.run before).heap.size)) :
    ¬ ((initial.run events).tracker id).Knows r := by
  intro knows
  rcases exists_wrap_of_knows sound_initial knows with hknown | ⟨before, e, later, hsplit, hwrap⟩
  · have hempty : ∀ id, ¬ (initial.tracker id).Knows r := by
      intro id
      cases id <;> exact fun hknows => hknows.elim (· rfl) (· rfl)
    exact hempty id hknown
  · obtain ⟨hplace, hfixes⟩ := untouched before e later hsplit
    rcases hwrap with hwrap | ⟨hfix, hr⟩
    · exact hplace hwrap
    · exact hfixes hfix hr

theorem last_mem (f : Ref) (links : List Link) : Link.last f links ∈ f :: links.map Link.object := by
  cases links with
  | nil =>
      exact List.mem_cons_self
  | cons link earlier =>
      exact List.mem_cons_of_mem _ List.mem_cons_self

theorem traced_start (events : List Event) (callable : (initial.run events).heap.callable f = true)
    (unknown : ¬ ((initial.run events).tracker id).Knows f) :
    (initial.run events).Traced id f [] where
  sound := sound_run events
  callable := callable
  callableLast := callable
  unknown := unknown
  source := Tracker.source_of_not_knows unknown
  state := Tracker.state_of_not_knows unknown

theorem Sound.partialClass (sound : w.Sound) (active : w.active = some id) :
    w.partialClass = Catalog.trackedPartialClass := by
  rw [World.partialClass, sound.usual, active]
  rfl

theorem Sound.instrumented (sound : w.Sound) (active : w.active = some id) :
    w.instrumented = true := by
  rw [World.instrumented, updateWrapper, sound.usual, active]
  rfl

theorem Traced.bound (traced : w.Traced id f links) (active : w.active = some id)
    (done : w.bind w.partialClass (some (Link.last f links)) args keywords = .ok (w', made)) :
    w'.Traced id f (⟨made, .bound⟩ :: links) := by
  have hsound : w'.Sound := by
    have hperform := traced.sound.perform
      (.bind w.partialClass (some (Link.last f links)) args keywords)
    rwa [World.perform, done] at hperform
  have hgrows := (continues_of_bind done).grows
  rw [traced.sound.partialClass active, bind_eq_ok_iff, traced.sound.reports_tracked] at done
  obtain ⟨target, htarget, rfl, -, -, rfl⟩ := done
  cases htarget
  have htracker := traced.sound.tracker_report_made (p := w.heap.fixing
    Catalog.trackedPartialClass (Link.last f links) args keywords) traced.callableLast id
  rw [if_pos active] at htracker
  have hne : f ≠ w.heap.size := Nat.ne_of_lt (Heap.lt_size_of_callable traced.callable)
  refine ⟨hsound, hgrows.callable traced.callable, ?_, ?_, ?_, ?_⟩
  · simp only [if_true, heap_report, Link.last, Heap.callable]
    rw [show (w.add _).heap.shape w.heap.size = _ from Heap.shape_add_size ..]
  · rw [if_pos rfl, htracker, Tracker.knows_put_of_ne hne]
    exact traced.unknown
  · rw [if_pos rfl, htracker, Link.last, Tracker.source_put_self, traced.source]
  · rw [if_pos rfl, htracker, Link.last, Tracker.state_put_self, traced.state, Link.state_cons]
    rfl

theorem Traced.proxy (traced : w.Traced id f links) (active : w.active = some id)
    (callable : w.heap.callable wrapper = true) (referable : w.heap.weaklyReferable wrapper = true)
    (unknown : ¬ (w.tracker id).Knows wrapper) (apart : wrapper ∉ f :: links.map Link.object)
    (done : w.imitate w.instrumented wrapper (Link.last f links) assigned updated =
      (w', .ok wrapper)) : w'.Traced id f (⟨wrapper, .proxy⟩ :: links) := by
  rw [traced.sound.instrumented active] at done
  have hworld : w' = w.perform (.imitate true wrapper (Link.last f links) assigned updated) :=
    (congrArg Prod.fst done).symm
  have hgrows := grows_perform w (.imitate true wrapper (Link.last f links) assigned updated)
  have hdistinct : wrapper ≠ Link.last f links := by
    rintro rfl
    exact apart (last_mem f links)
  have hne : f ≠ wrapper := by
    rintro rfl
    exact apart List.mem_cons_self
  have hsucceeds : (w.heap.imitate wrapper (Link.last f links) assigned updated).2 = .ok () := by
    rw [imitate] at done
    split at done
    next => cases done
    next heap hrun => rw [hrun]
  have hrewraps : w.Rewraps id (Link.last f links) wrapper .proxy
      (.imitate true wrapper (Link.last f links) assigned updated) :=
    ⟨traced.sound.active id active, Or.inl ⟨assigned, updated, rfl, active, rfl, hsucceeds⟩,
      hdistinct, hgrows.callable traced.callableLast, hgrows.weaklyReferable referable⟩
  have htracker := hrewraps.recorded
  rw [Tracker.wrap, WrapState.afterWrap, Tracker.state_of_not_knows unknown,
    WrapState.demote_unwrapped, WrapState.union_unwrapped, traced.source, traced.state] at htracker
  rw [hworld]
  refine ⟨traced.sound.perform _, hgrows.callable traced.callable, hgrows.callable callable,
    ?_, ?_, ?_⟩
  · rw [htracker, Tracker.knows_put_of_ne hne]
    exact traced.unknown
  · rw [htracker, Link.last, Tracker.source_put_self]
  · rw [htracker, Link.last, Tracker.state_put_self, Link.state_cons]
    rfl

/-- A record of another object changes nothing of what is told of the ends of a chain. -/
theorem Traced.put (traced : w.Traced id f links) {result source : Ref} {state : WrapState}
    (apart : result ≠ f) (apartLast : result ≠ Link.last f links) :
    ¬ ((w.tracker id).put result source state).Knows f ∧
    ((w.tracker id).put result source state).source (Link.last f links) = f ∧
    ((w.tracker id).put result source state).state (Link.last f links) = Link.state links := by
  rw [Tracker.knows_put_of_ne apart.symm, Tracker.source_put_of_ne apartLast.symm,
    Tracker.state_put_of_ne apartLast.symm]
  exact ⟨traced.unknown, traced.source, traced.state⟩

theorem Traced.other (traced : w.Traced id f links) {e : Event}
    (spares : ∀ r ∈ f :: links.map Link.object, ¬ e.WrapsInPlace r)
    (outlived : ¬ e.Ends (Link.last f links)) : (w.perform e).Traced id f links := by
  have hgrows := grows_perform w e
  have htold : ¬ ((w.perform e).tracker id).Knows f ∧
      ((w.perform e).tracker id).source (Link.last f links) = f ∧
      ((w.perform e).tracker id).state (Link.last f links) = Link.state links := by
    cases noted_perform w id e with
    | unchanged sources states =>
        simp only [Tracker.Knows, Tracker.source, Tracker.state, sources, states]
        exact ⟨traced.unknown, traced.source, traced.state⟩
    | perished alive perish pruned =>
        subst perish
        have hwithin := traced.sound.within id
        have halive : alive (Link.last f links) = true := by
          simpa [Event.Ends] using outlived
        rw [pruned, hwithin.source_prune, hwithin.state_prune halive, if_pos halive]
        exact ⟨fun hknows => traced.unknown (hwithin.knows_of_knows_prune hknows),
          traced.source, traced.state⟩
    | fresh target kind fixes known made recorded =>
        rw [recorded]
        exact traced.put (Nat.ne_of_gt (Heap.lt_size_of_callable traced.callable))
          (Nat.ne_of_gt (Heap.lt_size_of_callable traced.callableLast))
    | rewrapped target result kind rewraps recorded =>
        have hapart : ∀ r ∈ f :: links.map Link.object, result ≠ r := by
          rintro r member rfl
          rcases rewraps.wraps with ⟨assigned, updated, rfl, -⟩ | rfl
          · exact spares result member rfl
          · exact spares result member rfl
        rw [recorded]
        exact traced.put (hapart f List.mem_cons_self) (hapart _ (last_mem f links))
  exact ⟨traced.sound.perform e, hgrows.callable traced.callable,
    hgrows.callable traced.callableLast, htold.1, htold.2.1, htold.2.2⟩

theorem Chain.traced (chain : Chain id f w links) : w.Traced id f links := by
  induction chain with
  | start events callable unknown =>
      exact traced_start events callable unknown
  | bound _ active done ih =>
      exact ih.bound active done
  | proxy _ active callable referable unknown apart done ih =>
      exact ih.proxy active callable referable unknown apart done
  | other _ e spares outlived ih =>
      exact ih.other spares outlived

end World

end CallableKinds
