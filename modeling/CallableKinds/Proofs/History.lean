import CallableKinds.Proofs.Growth
import CallableKinds.Proofs.Outcome
import CallableKinds.Proofs.Records
import CallableKinds.World.Binding

/-!
# Histories of worlds

What can happen to a world, one event after another. The heap only grows on the way, the tables of
the trackers hold objects of the heap only, and a tracker gets a record from a new callable with
fixed arguments or from a wrap of objects that were there before.
-/

namespace CallableKinds

/-- The primitives that belong under the usual names while a tracker is active, or while none is. -/
def Primitives.during : Option Nat → Primitives
  | some _ => .instrumented
  | none => .plain

/-- What can happen to a world. -/
inductive Event where
  /-- An object is made, possibly with a dictionary. -/
  | create (shape : Shape) (attributes : Option Attributes)
  | setAttribute (r : Ref) (name : String) (value : Value)
  /-- The dictionary of an object is looked at. -/
  | touch (r : Ref)
  | bind (cls : Ref) (func : Option Ref) (args : List Value) (keywords : Keyed String Value)
  | copy (deep : Bool) (r : Ref)
  | imitate (tracked : Bool) (wrapper wrapped : Ref) (assigned updated : List String)
  | addTracker (script : List Interception)
  | install (id : Nat)
  | uninstall (id : Nat)
  | record (id : Nat) (target result : Ref) (kind : WrapState)
  /-- A tracker is asked for an interception. -/
  | intercept (id : Nat)
  /-- All objects die that are not alive any more. -/
  | perish (alive : Ref → Bool)

/-- An event makes an object with fixed arguments, if it succeeds. -/
def Event.Fixes : Event → Prop
  | .bind .. => True
  | .copy .. => True
  | _ => False

namespace World

variable {w w' : World} {id : Nat} {cls made r target : Ref} {args : List Value}
  {keywords : Keyed String Value}

/-- The world after an event. What fails changes nothing, but an imitation may fail halfway. -/
def perform (w : World) : Event → World
  | .create shape none => w.add shape
  | .create shape (some attributes) => { w with heap := w.heap.addWith shape attributes }
  | .setAttribute r name value =>
    match w.heap.setAttribute r name value with
    | .ok heap => { w with heap }
    | .error _ => w
  | .touch r => { w with heap := w.heap.touchDict r }
  | .bind cls func args keywords =>
    match w.bind cls func args keywords with
    | .ok (w', _) => w'
    | .error _ => w
  | .copy deep r =>
    match w.copy deep r with
    | .ok (w', _) => w'
    | .error _ => w
  | .imitate tracked wrapper wrapped assigned updated =>
    (w.imitate tracked wrapper wrapped assigned updated).1
  | .addTracker script => w.addTracker script
  | .install id => if id < w.trackers.length then w.install id else w
  | .uninstall id => w.uninstall id
  | .record id target result kind => w.record id target result kind
  | .intercept id => w.withTracker id fun t => t.intercept.2
  | .perish alive => { w with trackers := w.trackers.map fun t => t.prune alive }

/-- The world after some events, one after another. -/
def run (w : World) (events : List Event) : World := events.foldl perform w

theorem run_append (w : World) (events later : List Event) :
    w.run (events ++ later) = (w.run events).run later :=
  List.foldl_append ..

/-- One more event of a list. -/
theorem run_take_succ (w : World) {events : List Event} {n : Nat} {e : Event}
    (found : events[n]? = some e) :
    w.run (events.take (n + 1)) = (w.run (events.take n)).perform e := by
  rw [List.take_add_one, found, run_append]
  rfl

/-! ### Trackers by number -/

theorem tracker_withTracker (w : World) (id other : Nat) (change : Tracker → Tracker) :
    (w.withTracker id change).tracker other =
      if id = other ∧ id < w.trackers.length then change (w.tracker other)
      else w.tracker other := by
  simp only [tracker, withTracker, List.getElem?_modify]
  by_cases hid : id = other
  · subst hid
    by_cases hlt : id < w.trackers.length
    · simp [hlt]
    · simp [hlt]
  · simp [hid]

theorem tracker_addTracker_self (w : World) (script : List Interception) :
    (w.addTracker script).tracker w.trackers.length = .scripted script := by
  simp [tracker, addTracker]

theorem tracker_addTracker_of_ne (w : World) (script : List Interception) {id : Nat}
    (old : id ≠ w.trackers.length) : (w.addTracker script).tracker id = w.tracker id := by
  simp only [tracker, addTracker, List.getElem?_append]
  split
  next => rfl
  next hle =>
      have hpast : w.trackers.length < id := by omega
      have hlater : [Tracker.scripted script].length ≤ id - w.trackers.length := by
        change 1 ≤ id - w.trackers.length
        omega
      rw [List.getElem?_eq_none hlater, List.getElem?_eq_none (Nat.le_of_lt hpast)]

theorem tracker_record (w : World) (id other : Nat) (target result : Ref) (kind : WrapState) :
    (w.record id target result kind).tracker other =
      if id = other ∧ id < w.trackers.length then
        (w.tracker other).record w.heap target result kind
      else w.tracker other :=
  tracker_withTracker w id other _

theorem tracker_report (w : World) (other : Nat) (target result : Ref) (kind : WrapState) :
    (w.report target result kind).tracker other =
      if w.active = some other ∧ other < w.trackers.length then
        (w.tracker other).record w.heap target result kind
      else w.tracker other := by
  rw [report]
  cases hactive : w.active with
  | none =>
      simp
  | some id =>
      simp only [tracker_record, Option.some.injEq]
      by_cases hid : id = other
      · subst hid
        rfl
      · simp [hid]

@[simp] theorem length_trackers_withTracker (w : World) (id : Nat) (change : Tracker → Tracker) :
    (w.withTracker id change).trackers.length = w.trackers.length :=
  List.length_modify ..

@[simp] theorem length_trackers_report (w : World) (target result : Ref) (kind : WrapState) :
    (w.report target result kind).trackers.length = w.trackers.length := by
  rw [report]
  split
  · exact length_trackers_withTracker ..
  · rfl

/-! ### Bindings and copies -/

/-- What the making of a callable with fixed arguments requires and does. -/
theorem bind_eq_ok_iff {func : Option Ref} :
    w.bind cls func args keywords = .ok (w', made) ↔
      ∃ target, func = some target ∧ made = w.heap.size ∧
        w.heap.callable (w.heap.fixing cls target args keywords).func = true ∧
        (w.heap.reports cls && Keyed.has constructedClass keywords) = false ∧
        w' = if w.heap.reports cls then
          (w.add (.partialOf (w.heap.fixing cls target args keywords))).report target made .bound
        else w.add (.partialOf (w.heap.fixing cls target args keywords)) := by
  constructor
  · intro done
    unfold bind at done
    cases hclash : w.heap.reports cls && Keyed.has constructedClass keywords with
    | true =>
        simp [hclash] at done
    | false =>
        simp only [hclash, Bool.false_eq_true, if_false] at done
        cases func with
        | none =>
            cases done
        | some target =>
            dsimp only at done
            cases hcallable : w.heap.callable (w.heap.fixing cls target args keywords).func with
            | false =>
                simp [hcallable] at done
            | true =>
                rw [hcallable, if_pos rfl] at done
                cases done
                exact ⟨target, rfl, rfl, hcallable, rfl, rfl⟩
  · rintro ⟨target, rfl, rfl, hcallable, hclash, rfl⟩
    simp only [bind, hclash, hcallable, Bool.false_eq_true, if_false, if_true]

/-- A new callable with fixed arguments leaves everything before it in its place. -/
theorem continues_of_bind {func : Option Ref}
    (done : w.bind cls func args keywords = .ok (w', made)) : w'.heap.Continues w.heap := by
  obtain ⟨target, -, -, -, -, rfl⟩ := bind_eq_ok_iff.mp done
  have hadd := (Heap.Continues.refl w.heap).add (.partialOf (w.heap.fixing cls target args keywords))
  split
  · rw [heap_report]
    exact hadd
  · exact hadd

/-- What the copying of an object does: another object of the same callable is made, which then takes
the arguments and the attributes over. -/
theorem copy_ok {deep : Bool} (done : w.copy deep r = .ok (w', made)) :
    (w' = w ∧ made = r ∧ ∀ p, w.heap.shape r ≠ .partialOf p) ∨
    ∃ p w₀ w₁, w.heap.shape r = .partialOf p ∧
      (w₀ = w ∨ w₀ = { w with heap := w.heap.touchDict r }) ∧
      w₀.bind (w.copyingClass p.cls) (some p.func) [] [] = .ok (w₁, made) ∧
      w'.trackers = w₁.trackers ∧ w'.active = w₁.active ∧ w'.usual = w₁.usual ∧
      w'.heap.size = w₁.heap.size ∧ w'.heap.Continues w₀.heap := by
  rw [copy] at done
  split at done
  next p hp =>
      dsimp only at done
      obtain ⟨⟨w₁, made'⟩, hbind, hcopied⟩ := ok_of_bind done
      cases hcopied
      generalize hw₀ : (if w.copiedAsUsual p.cls = true then
        { w with heap := w.heap.touchDict r } else w) = w₀ at hbind ⊢
      have htouched : w₀ = w ∨ w₀ = { w with heap := w.heap.touchDict r } := by
        rw [← hw₀]
        split
        · exact Or.inr rfl
        · exact Or.inl rfl
      obtain ⟨-, -, hmade, -⟩ := bind_eq_ok_iff.mp hbind
      have houtside : w₀.heap.size ≤ made' := Nat.le_of_eq hmade.symm
      have hreshaped := fun shape => (continues_of_bind hbind).reshape houtside shape
      refine Or.inr ⟨p, w₀, w₁, hp, htouched, hbind, rfl, rfl, rfl, ?_⟩
      dsimp only
      split
      · exact ⟨by simp, hreshaped _⟩
      · exact ⟨by simp, (hreshaped _).shareDict houtside deep r⟩
  next hother =>
      cases done
      exact Or.inl ⟨rfl, rfl, hother⟩

/-! ### Growth along a history -/

theorem grows_copy {deep : Bool} (done : w.copy deep r = .ok (w', made)) :
    w.heap.Grows w'.heap := by
  rcases copy_ok done with ⟨rfl, -⟩ | ⟨p, w₀, w₁, -, hw₀, -, -, -, -, -, hcontinues⟩
  · exact Heap.Grows.refl _
  · rcases hw₀ with rfl | rfl
    · exact hcontinues.grows
    · exact (Heap.Grows.touchDict w.heap r).trans hcontinues.grows

theorem heap_imitate (w : World) (tracked : Bool) (wrapper wrapped : Ref)
    (assigned updated : List String) :
    (w.imitate tracked wrapper wrapped assigned updated).1.heap =
      (w.heap.imitate wrapper wrapped assigned updated).1 := by
  rw [imitate]
  split
  next heap f hrun => rw [hrun]
  next heap hrun =>
      rw [hrun]
      dsimp only
      split
      · exact heap_report ..
      · rfl

/-- An event leaves the objects and the attributes that were there. -/
theorem grows_perform (w : World) (e : Event) : w.heap.Grows (w.perform e).heap := by
  cases e with
  | create shape attributes =>
      cases attributes with
      | none =>
          exact ((Heap.Continues.refl w.heap).add shape).grows
      | some attributes =>
          exact ((Heap.Continues.refl w.heap).addWith shape attributes).grows
  | setAttribute r name value =>
      unfold perform
      dsimp only
      split
      next heap hset => exact (Heap.Alters.setAttribute hset).grows
      next => exact Heap.Grows.refl _
  | touch r =>
      exact Heap.Grows.touchDict w.heap r
  | bind cls func args keywords =>
      unfold perform
      dsimp only
      split
      next w' made hbind => exact (continues_of_bind hbind).grows
      next => exact Heap.Grows.refl _
  | copy deep r =>
      unfold perform
      dsimp only
      split
      next w' made hcopy => exact grows_copy hcopy
      next => exact Heap.Grows.refl _
  | imitate tracked wrapper wrapped assigned updated =>
      change w.heap.Grows (w.imitate tracked wrapper wrapped assigned updated).1.heap
      rw [heap_imitate]
      exact (Heap.Alters.imitate w.heap wrapper wrapped assigned updated).grows
  | install id =>
      unfold perform
      dsimp only
      split
      · rw [heap_install]
        exact Heap.Grows.refl _
      · exact Heap.Grows.refl _
  | uninstall id =>
      change w.heap.Grows (w.uninstall id).heap
      rw [heap_uninstall]
      exact Heap.Grows.refl _
  | _ => exact Heap.Grows.refl _

theorem grows_run (w : World) (events : List Event) : w.heap.Grows (w.run events).heap := by
  induction events generalizing w with
  | nil =>
      exact Heap.Grows.refl _
  | cons e rest ih =>
      exact (grows_perform w e).trans (ih (w.perform e))

/-! ### What trackers take record of -/

/-- An event wraps objects that were there before, and a tracker takes record of it. -/
structure Rewraps (w : World) (id : Nat) (target result : Ref) (kind : WrapState) (e : Event) :
    Prop where
  numbered : id < w.trackers.length
  wraps :
    (∃ assigned updated, e = .imitate true result target assigned updated ∧ w.active = some id ∧
      kind = .proxy ∧ (w.heap.imitate result target assigned updated).2 = .ok ()) ∨
    e = .record id target result kind
  distinct : result ≠ target
  callable : (w.perform e).heap.callable target = true
  referable : (w.perform e).heap.weaklyReferable result = true

/-- What an event may make of the tracker with a number. -/
inductive Noted (w : World) (id : Nat) (e : Event) (t : Tracker) : Prop where
  | unchanged (sources : t.sources = (w.tracker id).sources)
      (states : t.states = (w.tracker id).states)
  | perished (alive : Ref → Bool) (perish : e = .perish alive)
      (pruned : t = (w.tracker id).prune alive)
  /-- A callable with fixed arguments was made. -/
  | fresh (target : Ref) (kind : WrapState) (fixes : e.Fixes) (known : target < w.heap.size)
      (made : w.heap.size < (w.perform e).heap.size)
      (recorded : t = (w.tracker id).wrap target w.heap.size kind)
  | rewrapped (target result : Ref) (kind : WrapState)
      (rewraps : w.Rewraps id target result kind e)
      (recorded : t = (w.tracker id).wrap target result kind)

theorem tracker_congr {w w' : World} (same : w'.trackers = w.trackers) (id : Nat) :
    w'.tracker id = w.tracker id := by
  rw [tracker, tracker, same]

/-- A tracker takes record of nothing but a new callable with fixed arguments when one is made. -/
theorem tracker_bind {func : Option Ref} (done : w.bind cls func args keywords = .ok (w', made))
    (id : Nat) :
    w.heap.size < w'.heap.size ∧
    (w'.tracker id = w.tracker id ∨
      ∃ target kind, target < w.heap.size ∧
        w'.tracker id = (w.tracker id).wrap target w.heap.size kind) := by
  obtain ⟨target, -, rfl, -, -, rfl⟩ := bind_eq_ok_iff.mp done
  split
  · rw [heap_report, tracker_report]
    refine ⟨by simp [add], ?_⟩
    split
    · rcases Tracker.record_cases ((w.add _).tracker id) (w.add _).heap target w.heap.size .bound
        with hsame | ⟨hne, hcallable, -, hwrap⟩
      · exact Or.inl hsame
      · have hlt := Heap.lt_size_of_callable hcallable
        rw [add, Heap.size_add] at hlt
        exact Or.inr ⟨target, .bound, Nat.lt_of_le_of_ne (Nat.le_of_lt_succ hlt) hne.symm, hwrap⟩
    · exact Or.inl rfl
  · exact ⟨by simp [add], Or.inl rfl⟩

theorem tracker_copy {deep : Bool} (done : w.copy deep r = .ok (w', made)) (id : Nat) :
    w'.tracker id = w.tracker id ∨
    (w.heap.size < w'.heap.size ∧ ∃ target kind, target < w.heap.size ∧
      w'.tracker id = (w.tracker id).wrap target w.heap.size kind) := by
  rcases copy_ok done with ⟨rfl, -⟩ | ⟨p, w₀, w₁, -, hw₀, hbind, htrackers, -, -, hsize₁, -⟩
  · exact Or.inl rfl
  · have hsize : w₀.heap.size = w.heap.size := by
      rcases hw₀ with rfl | rfl
      · rfl
      · exact Heap.size_touchDict ..
    have hsame : w₀.tracker id = w.tracker id := by
      rcases hw₀ with rfl | rfl <;> rfl
    obtain ⟨hlt, hnoted⟩ := tracker_bind hbind id
    rw [tracker_congr htrackers, hsize₁, ← hsize, ← hsame]
    exact hnoted.imp_right fun hwrap => ⟨hlt, hwrap⟩

/-- An imitation that succeeds and is tracked is reported, and no other. -/
theorem trackers_imitate (w : World) (tracked : Bool) (wrapper wrapped : Ref)
    (assigned updated : List String) :
    (w.imitate tracked wrapper wrapped assigned updated).1.trackers = w.trackers ∨
    (tracked = true ∧ (w.heap.imitate wrapper wrapped assigned updated).2 = .ok () ∧
      (w.imitate tracked wrapper wrapped assigned updated).1.trackers =
        (report { w with heap := (w.heap.imitate wrapper wrapped assigned updated).1 }
          wrapped wrapper .proxy).trackers) := by
  rw [imitate]
  split
  next heap f hrun => exact Or.inl rfl
  next heap hrun =>
      cases tracked with
      | false =>
          exact Or.inl rfl
      | true =>
          exact Or.inr ⟨rfl, by rw [hrun], by rw [hrun]; rfl⟩

/-- An imitation is noted as a wrap of objects that were there before, or not at all. -/
theorem noted_imitate (w : World) (id : Nat) (tracked : Bool) (wrapper wrapped : Ref)
    (assigned updated : List String) :
    w.Noted id (.imitate tracked wrapper wrapped assigned updated)
      ((w.perform (.imitate tracked wrapper wrapped assigned updated)).tracker id) := by
  rcases trackers_imitate w tracked wrapper wrapped assigned updated with
    hsame | ⟨rfl, hdone, hreport⟩
  · exact .unchanged (congrArg Tracker.sources (tracker_congr hsame id))
      (congrArg Tracker.states (tracker_congr hsame id))
  · have htracker := tracker_congr hreport id
    rw [tracker_report] at htracker
    split_ifs at htracker with hactive
    · rcases Tracker.record_cases (w.tracker id)
        (w.heap.imitate wrapper wrapped assigned updated).1 wrapped wrapper .proxy
        with hnone | ⟨hne, hcallable, hreferable, hwrap⟩
      · exact .unchanged (congrArg Tracker.sources (htracker.trans hnone))
          (congrArg Tracker.states (htracker.trans hnone))
      · have hheap := heap_imitate w true wrapper wrapped assigned updated
        exact .rewrapped wrapped wrapper .proxy ⟨hactive.2,
          Or.inl ⟨assigned, updated, rfl, hactive.1, rfl, hdone⟩, hne,
          (congrArg (Heap.callable · wrapped) hheap).trans hcallable,
          (congrArg (Heap.weaklyReferable · wrapper) hheap).trans hreferable⟩
          (htracker.trans hwrap)
    · exact .unchanged (congrArg Tracker.sources htracker) (congrArg Tracker.states htracker)

theorem noted_record (w : World) (id other : Nat) (target result : Ref) (kind : WrapState) :
    w.Noted id (.record other target result kind)
      ((w.perform (.record other target result kind)).tracker id) := by
  have htracker := tracker_record w other id target result kind
  split_ifs at htracker with hother
  · obtain ⟨rfl, hlt⟩ := hother
    rcases Tracker.record_cases (w.tracker other) w.heap target result kind
      with hnone | ⟨hne, hcallable, hreferable, hwrap⟩
    · exact .unchanged (congrArg Tracker.sources (htracker.trans hnone))
        (congrArg Tracker.states (htracker.trans hnone))
    · exact .rewrapped target result kind ⟨hlt, Or.inr rfl, hne, hcallable, hreferable⟩
        (htracker.trans hwrap)
  · exact .unchanged (congrArg Tracker.sources htracker) (congrArg Tracker.states htracker)

/-- Whatever happens, a tracker keeps its tables, loses the entries of dead objects, or takes record
of one wrap. -/
theorem noted_perform (w : World) (id : Nat) (e : Event) :
    w.Noted id e ((w.perform e).tracker id) := by
  cases e with
  | create shape attributes =>
      cases attributes <;> exact .unchanged rfl rfl
  | setAttribute r name value =>
      unfold perform
      dsimp only
      split <;> exact .unchanged rfl rfl
  | touch r =>
      exact .unchanged rfl rfl
  | bind cls func args keywords =>
      cases hbind : w.bind cls func args keywords with
      | error f =>
          simp only [perform, hbind]
          exact .unchanged rfl rfl
      | ok made =>
          have hperform : w.perform (.bind cls func args keywords) = made.1 := by
            simp only [perform, hbind]
          obtain ⟨hlt, hsame | ⟨target, kind, hknown, hwrap⟩⟩ := tracker_bind hbind id
          · rw [hperform, hsame]
            exact .unchanged rfl rfl
          · exact .fresh target kind trivial hknown (hperform ▸ hlt) (hperform ▸ hwrap)
  | copy deep r =>
      cases hcopy : w.copy deep r with
      | error f =>
          simp only [perform, hcopy]
          exact .unchanged rfl rfl
      | ok made =>
          have hperform : w.perform (.copy deep r) = made.1 := by
            simp only [perform, hcopy]
          rcases tracker_copy hcopy id with hsame | ⟨hlt, target, kind, hknown, hwrap⟩
          · rw [hperform, hsame]
            exact .unchanged rfl rfl
          · exact .fresh target kind trivial hknown (hperform ▸ hlt) (hperform ▸ hwrap)
  | imitate tracked wrapper wrapped assigned updated =>
      exact noted_imitate w id tracked wrapper wrapped assigned updated
  | addTracker script =>
      by_cases hnew : id = w.trackers.length
      · have hdefault : w.tracker id = default := by
          rw [tracker, hnew, List.getElem?_eq_none (Nat.le_refl _), Option.getD_none]
        have htracker : (w.perform (.addTracker script)).tracker id = .scripted script := by
          subst hnew
          exact tracker_addTracker_self w script
        rw [htracker]
        exact .unchanged (by rw [hdefault]; rfl) (by rw [hdefault]; rfl)
      · have htracker : (w.perform (.addTracker script)).tracker id = w.tracker id :=
          tracker_addTracker_of_ne w script hnew
        rw [htracker]
        exact .unchanged rfl rfl
  | install other =>
      unfold perform
      dsimp only
      split
      · rw [tracker_congr (trackers_install w other)]
        exact .unchanged rfl rfl
      · exact .unchanged rfl rfl
  | uninstall other =>
      change w.Noted id (.uninstall other) ((w.uninstall other).tracker id)
      rw [tracker_congr (trackers_uninstall w other)]
      exact .unchanged rfl rfl
  | record other target result kind =>
      exact noted_record w id other target result kind
  | intercept other =>
      change w.Noted id (.intercept other) ((w.withTracker other _).tracker id)
      rw [tracker_withTracker]
      split
      · exact .unchanged (Tracker.sources_intercept _) (Tracker.states_intercept _)
      · exact .unchanged rfl rfl
  | perish alive =>
      refine .perished alive rfl ?_
      change ((w.trackers.map fun t => t.prune alive)[id]?).getD default = _
      rw [List.getElem?_map, tracker]
      cases w.trackers[id]? <;> rfl

/-- A tracker takes record of every wrap of objects that were there before. -/
theorem Rewraps.recorded {result : Ref} {kind : WrapState} {e : Event}
    (rewraps : w.Rewraps id target result kind e) :
    (w.perform e).tracker id = (w.tracker id).wrap target result kind := by
  rcases rewraps.wraps with ⟨assigned, updated, rfl, hactive, rfl, hdone⟩ | rfl
  · have hheap := heap_imitate w true result target assigned updated
    have htracker : (w.perform (.imitate true result target assigned updated)).tracker id =
        (w.tracker id).record (w.heap.imitate result target assigned updated).1 target result
          .proxy := by
      have hperform : w.perform (.imitate true result target assigned updated) =
          report { w with heap := (w.heap.imitate result target assigned updated).1 }
            target result .proxy := by
        simp only [perform, imitate]
        split
        next heap f hrun =>
            rw [hrun] at hdone
            cases hdone
        next heap hrun =>
            rw [hrun]
            rfl
      rw [hperform, tracker_report, if_pos ⟨hactive, rewraps.numbered⟩]
      rfl
    rw [htracker]
    exact Tracker.record_eq_wrap rewraps.distinct
      ((congrArg (Heap.callable · target) hheap).symm.trans rewraps.callable)
      ((congrArg (Heap.weaklyReferable · result) hheap).symm.trans rewraps.referable)
  · change (w.record id target result kind).tracker id = _
    rw [tracker_record, if_pos ⟨rfl, rewraps.numbered⟩]
    exact Tracker.record_eq_wrap rewraps.distinct rewraps.callable rewraps.referable

/-! ### What holds along every history -/

/-- The builtin objects are in their places, the tables of the trackers hold objects of the heap
only, the active tracker is there, and the primitives that report are under their usual names exactly
while there is one. -/
structure Sound (w : World) : Prop where
  builtin : World.initial.heap.Grows w.heap
  within : ∀ id, (w.tracker id).Within w.heap.size
  active : ∀ id, w.active = some id → id < w.trackers.length
  usual : w.usual = .during w.active

theorem sound_initial : initial.Sound where
  builtin := Heap.Grows.refl _
  within id := by
    cases id with
    | zero =>
        exact .scripted [] _
    | succ n =>
        exact .scripted [] _
  active id hactive := by
    cases hactive
    decide
  usual := rfl

/-- The same tracker is active in a later world, and the same primitives are under their usual
names. -/
structure SameInstallation (w w' : World) : Prop where
  active : w'.active = w.active
  usual : w'.usual = w.usual
  numbered : w.trackers.length ≤ w'.trackers.length

theorem SameInstallation.refl (w : World) : w.SameInstallation w := ⟨rfl, rfl, Nat.le_refl _⟩

theorem sameInstallation_report (w : World) (target result : Ref) (kind : WrapState) :
    w.SameInstallation (w.report target result kind) where
  active := active_report w target result kind
  usual := usual_report w target result kind
  numbered := Nat.le_of_eq (length_trackers_report w target result kind).symm

theorem sameInstallation_withTracker (w : World) (id : Nat) (change : Tracker → Tracker) :
    w.SameInstallation (w.withTracker id change) where
  active := rfl
  usual := rfl
  numbered := Nat.le_of_eq (length_trackers_withTracker w id change).symm

theorem sameInstallation_bind {func : Option Ref}
    (done : w.bind cls func args keywords = .ok (w', made)) : w.SameInstallation w' := by
  obtain ⟨target, -, -, -, -, rfl⟩ := bind_eq_ok_iff.mp done
  split
  · have hreport := sameInstallation_report
      (w.add (.partialOf (w.heap.fixing cls target args keywords))) target made .bound
    exact ⟨hreport.active, hreport.usual, hreport.numbered⟩
  · exact ⟨rfl, rfl, Nat.le_refl _⟩

theorem sameInstallation_copy {deep : Bool} (done : w.copy deep r = .ok (w', made)) :
    w.SameInstallation w' := by
  rcases copy_ok done with ⟨rfl, -⟩ | ⟨p, w₀, w₁, -, hw₀, hbind, htrackers, hactive, husual, -⟩
  · exact SameInstallation.refl _
  · have hbound := sameInstallation_bind hbind
    have hnumbered : w₀.trackers.length ≤ w'.trackers.length := htrackers ▸ hbound.numbered
    have hsame : w₀.SameInstallation w' :=
      ⟨hactive.trans hbound.active, husual.trans hbound.usual, hnumbered⟩
    rcases hw₀ with rfl | rfl
    · exact hsame
    · exact ⟨hsame.active, hsame.usual, hsame.numbered⟩

theorem sameInstallation_imitate (w : World) (tracked : Bool) (wrapper wrapped : Ref)
    (assigned updated : List String) :
    w.SameInstallation (w.imitate tracked wrapper wrapped assigned updated).1 := by
  rw [imitate]
  split
  next heap f _ => exact ⟨rfl, rfl, Nat.le_refl _⟩
  next heap _ =>
      cases tracked with
      | false =>
          exact ⟨rfl, rfl, Nat.le_refl _⟩
      | true =>
          have hreport := sameInstallation_report { w with heap } wrapped wrapper .proxy
          exact ⟨hreport.active, hreport.usual, hreport.numbered⟩

/-- Trackers become active by being installed and cease to be by being uninstalled, and nothing else
changes the primitives under their usual names. -/
theorem installation_perform (w : World) (e : Event) :
    w.SameInstallation (w.perform e) ∨
    (∃ id, e = .install id ∧ id < w.trackers.length ∧ w.perform e = w.install id) ∨
    ∃ id, e = .uninstall id ∧ w.perform e = w.uninstall id := by
  cases e with
  | create shape attributes =>
      left
      cases attributes <;> exact ⟨rfl, rfl, Nat.le_refl _⟩
  | setAttribute r name value =>
      left
      unfold perform
      dsimp only
      split <;> exact ⟨rfl, rfl, Nat.le_refl _⟩
  | touch r =>
      exact Or.inl ⟨rfl, rfl, Nat.le_refl _⟩
  | bind cls func args keywords =>
      left
      unfold perform
      dsimp only
      split
      next w' made hbind => exact sameInstallation_bind hbind
      next => exact SameInstallation.refl w
  | copy deep r =>
      left
      unfold perform
      dsimp only
      split
      next w' made hcopy => exact sameInstallation_copy hcopy
      next => exact SameInstallation.refl w
  | imitate tracked wrapper wrapped assigned updated =>
      exact Or.inl (sameInstallation_imitate w tracked wrapper wrapped assigned updated)
  | addTracker script =>
      have hlength : w.trackers.length ≤ (w.addTracker script).trackers.length := by
        simp [addTracker]
      exact Or.inl ⟨rfl, rfl, hlength⟩
  | install id =>
      by_cases hid : id < w.trackers.length
      · exact Or.inr (Or.inl ⟨id, rfl, hid, if_pos hid⟩)
      · have hperform : w.perform (.install id) = w := if_neg hid
        rw [hperform]
        exact Or.inl (SameInstallation.refl w)
  | uninstall id =>
      exact Or.inr (Or.inr ⟨id, rfl, rfl⟩)
  | record id target result kind =>
      exact Or.inl (sameInstallation_withTracker w id _)
  | intercept id =>
      exact Or.inl (sameInstallation_withTracker w id _)
  | perish alive =>
      have hlength : w.trackers.length ≤ (w.perform (.perish alive)).trackers.length := by
        simp [perform]
      exact Or.inl ⟨rfl, rfl, hlength⟩

theorem active_of_active_uninstall {id other : Nat} (active : (w.uninstall other).active = some id) :
    w.active = some id := by
  rw [uninstall] at active
  split at active
  · cases active
  · exact active

/-- An installation leaves the primitives under their usual names that belong there. -/
theorem usual_install (usual : w.usual = .during w.active) (id : Nat) :
    (w.install id).usual = .during (w.install id).active := by
  rw [active_install, install]
  split
  next hactive => rw [usual, hactive]
  next =>
      dsimp only
      split
      · rfl
      next hsome =>
          obtain ⟨other, hother⟩ := Option.ne_none_iff_exists'.mp hsome
          rw [usual, hother]
          rfl

theorem usual_uninstall (usual : w.usual = .during w.active) (id : Nat) :
    (w.uninstall id).usual = .during (w.uninstall id).active := by
  rw [uninstall]
  split
  · rfl
  · exact usual

/-- No tracker goes. -/
theorem length_trackers_perform (w : World) (e : Event) :
    w.trackers.length ≤ (w.perform e).trackers.length := by
  obtain hsame | ⟨id, -, -, hinstall⟩ | ⟨id, -, huninstall⟩ := installation_perform w e
  · exact hsame.numbered
  · exact Nat.le_of_eq (by rw [hinstall, trackers_install])
  · exact Nat.le_of_eq (by rw [huninstall, trackers_uninstall])

theorem Sound.perform (sound : w.Sound) (e : Event) : (w.perform e).Sound := by
  have hgrows := grows_perform w e
  refine ⟨sound.builtin.trans hgrows, fun id => ?_, fun id hactive => ?_, ?_⟩
  · have hwithin := (sound.within id).mono hgrows.size_le
    cases noted_perform w id e with
    | unchanged sources states =>
        exact ⟨sources ▸ hwithin.sources, states ▸ hwithin.states⟩
    | perished alive perish pruned =>
        rw [pruned]
        exact hwithin.prune alive
    | fresh target kind fixes known made recorded =>
        rw [recorded]
        exact hwithin.wrap (Nat.lt_of_lt_of_le known hgrows.size_le) made kind
    | rewrapped target result kind rewraps recorded =>
        rw [recorded]
        exact hwithin.wrap (Heap.lt_size_of_callable rewraps.callable)
          (Heap.lt_size_of_weaklyReferable rewraps.referable) kind
  · refine Nat.lt_of_lt_of_le ?_ (length_trackers_perform w e)
    obtain hsame | ⟨other, -, hother, hinstall⟩ | ⟨other, -, huninstall⟩ :=
      installation_perform w e
    · exact sound.active id (hsame.active ▸ hactive)
    · rw [hinstall, active_install] at hactive
      cases hactive
      exact hother
    · rw [huninstall] at hactive
      exact sound.active id (active_of_active_uninstall hactive)
  · obtain hsame | ⟨other, -, -, hinstall⟩ | ⟨other, -, huninstall⟩ := installation_perform w e
    · rw [hsame.usual, hsame.active]
      exact sound.usual
    · rw [hinstall]
      exact usual_install sound.usual other
    · rw [huninstall]
      exact usual_uninstall sound.usual other

theorem Sound.run (sound : w.Sound) (events : List Event) : (w.run events).Sound := by
  induction events generalizing w with
  | nil =>
      exact sound
  | cons e rest ih =>
      exact ih (sound.perform e)

/-- What holds of every world that a program can get into. -/
theorem sound_run (events : List Event) : (initial.run events).Sound := sound_initial.run events

end World

end CallableKinds
