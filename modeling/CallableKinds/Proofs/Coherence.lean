import CallableKinds.Proofs.History
import CallableKinds.World.Call
import Mathlib.Algebra.Ring.Nat

/-!
# Coherence of the tables of trackers

A tracker writes its two tables one after the other, and it writes both or none. So along every
history they have entries for the same objects, and the state of each of these tells the kind of its
last wrap. A wrap that fails, and one that there is nothing to record of, leave both tables alone.
-/

namespace CallableKinds

namespace WrapState

/-- The last wrap was of one kind. -/
def Marked (s : WrapState) : Prop := (s.isProxy ^^ s.isBound) = true

instance (s : WrapState) : Decidable s.Marked := inferInstanceAs (Decidable (_ = true))

theorem marked_proxy : proxy.Marked := rfl

theorem marked_bound : bound.Marked := rfl

theorem marked_afterWrap {kind : WrapState} (marked : kind.Marked) (target result : WrapState) :
    (afterWrap kind target result).Marked := by
  simpa [Marked, afterWrap, union] using marked

/-- The number of a marked state has one of its two lowest bits and none beyond the fourth. -/
theorem Marked.toBits {s : WrapState} (marked : s.Marked) :
    (s.toBits &&& 3 = 1 ∨ s.toBits &&& 3 = 2) ∧ s.toBits < 2 ^ 4 := by
  obtain ⟨a, b, c, d⟩ := s
  revert a b c d
  decide

/-- The state after a wrap in numbers: the kind, the demoted bits of the target, and of the demoted
bits of the result those that tell what was. -/
theorem toBits_afterWrap (kind target result : WrapState) :
    (afterWrap kind target result).toBits =
      kind.toBits ||| target.demote.toBits ||| (result.demote.toBits &&& 12) := by
  have hunion (s t : WrapState) : (s.union t).toBits = s.toBits ||| t.toBits := by
    obtain ⟨a, b, c, d⟩ := s
    obtain ⟨a', b', c', d'⟩ := t
    revert a b c d a' b' c' d'
    decide
  have hpast (s : WrapState) : s.demote.toBits &&& 12 = s.demote.toBits := by
    obtain ⟨a, b, c, d⟩ := s
    revert a b c d
    decide
  rw [afterWrap, hunion, hunion, hpast]

end WrapState

namespace WeakTable

variable {κ α : Type} [DecidableEq κ]

/-- The addresses of the entries and the objects that they were made for. -/
def slots (t : WeakTable κ α) : Keyed Nat κ := t.entries.map fun e => (e.1, e.2.key)

omit [DecidableEq κ] in
theorem keys_eq_map_slots (t : WeakTable κ α) : t.keys = t.slots.map Prod.snd := by
  simp [keys, slots]

omit [DecidableEq κ] in
theorem slots_set (t : WeakTable κ α) (address : Nat) (key : κ) (value : α) :
    (t.set address key value).slots = Keyed.put address key t.slots := by
  rw [slots, slots, set]
  generalize t.entries = m
  induction m with
  | nil => rfl
  | cons e rest ih =>
      obtain ⟨a, e⟩ := e
      by_cases ha : a = address
      · simp [Keyed.put, ha]
      · simpa [Keyed.put, ha] using ih

omit [DecidableEq κ] in
theorem slots_prune (t : WeakTable κ α) (alive : κ → Bool) :
    (t.prune alive).slots = t.slots.filter fun slot => alive slot.2 := by
  rw [slots, slots, prune, List.filter_map]
  rfl

/-- Whether a live key has an entry can be read off the slots. -/
theorem isSome_get? (t : WeakTable κ α) (address : Nat) (key : κ) :
    (t.get? address key).isSome = decide (Keyed.find? address t.slots = some key) := by
  have hfind : Keyed.find? address t.slots = (Keyed.find? address t.entries).map (·.key) := by
    rw [slots]
    generalize t.entries = m
    induction m with
    | nil => rfl
    | cons e rest ih =>
        obtain ⟨a, e⟩ := e
        by_cases ha : a = address
        · simp [Keyed.find?, ha]
        · simpa [Keyed.find?, ha] using ih
  rw [get?, entryOf, hfind, Option.isSome_map]
  cases Keyed.find? address t.entries with
  | none => simp
  | some e => by_cases he : e.key = key <;> simp [he]

end WeakTable

namespace Tracker

/-- The tables of a tracker have entries for the same objects, and every state tells the kind of a
last wrap. -/
structure Coherent (t : Tracker) : Prop where
  slots : t.sources.slots = t.states.slots
  marked : ∀ e ∈ t.states.entries, e.2.value.Marked

namespace Coherent

variable {t : Tracker} {kind : WrapState}

theorem scripted (script : List Interception) : (Tracker.scripted script).Coherent :=
  ⟨rfl, nofun⟩

/-- Both tables are written. -/
theorem put (coherent : t.Coherent) (r source : Ref) {state : WrapState} (marked : state.Marked) :
    (t.put r source state).Coherent where
  slots := by
    rw [Tracker.put, WeakTable.slots_set, WeakTable.slots_set, coherent.slots]
  marked e member := by
    rcases WeakTable.mem_entries_of_mem_set member with rfl | member
    · exact marked
    · exact coherent.marked e member

theorem record (coherent : t.Coherent) (h : Heap) (target result : Ref) (marked : kind.Marked) :
    (t.record h target result kind).Coherent := by
  rcases t.record_cases h target result kind with hsame | ⟨-, -, -, hwrap⟩
  · rw [hsame]
    exact coherent
  · rw [hwrap]
    exact coherent.put result (t.source target) (WrapState.marked_afterWrap marked _ _)

theorem prune (coherent : t.Coherent) (alive : Ref → Bool) : (t.prune alive).Coherent where
  slots := by
    rw [Tracker.prune, WeakTable.slots_prune, WeakTable.slots_prune, coherent.slots]
  marked e member := coherent.marked e (WeakTable.mem_entries_of_mem_prune member).1

theorem intercept (coherent : t.Coherent) : t.intercept.2.Coherent :=
  ⟨by simpa using coherent.slots, by simpa using coherent.marked⟩

theorem keys (coherent : t.Coherent) : t.sources.keys = t.states.keys := by
  rw [WeakTable.keys_eq_map_slots, WeakTable.keys_eq_map_slots, coherent.slots]

theorem isSome_get? (coherent : t.Coherent) (r : Ref) :
    (t.sources.get? r r).isSome = (t.states.get? r r).isSome := by
  rw [WeakTable.isSome_get?, WeakTable.isSome_get?, coherent.slots]

theorem marked_of_get? (coherent : t.Coherent) {r : Ref} {s : WrapState}
    (found : t.states.get? r r = some s) : s.Marked := by
  obtain ⟨e, member, -, -, rfl⟩ := WeakTable.exists_entry_of_get? found
  exact coherent.marked e member

end Coherent

/-- There is nothing to record of a wrap, or no way to. -/
theorem record_of_idle {t : Tracker} {h : Heap} {target result : Ref}
    (idle : result = target ∨ h.callable target = false ∨ h.weaklyReferable result = false)
    (kind : WrapState) : t.record h target result kind = t := by
  rw [Tracker.record, if_pos]
  rcases idle with hsame | hcallable | hreferable
  · simp [hsame]
  · simp [hcallable]
  · simp [hreferable]

end Tracker

/-- What an event records without making it is a wrap of one of the two kinds. -/
def Event.Kinded : Event → Prop
  | .record _ _ _ kind => kind = .proxy ∨ kind = .bound
  | _ => True

namespace World

variable {w w' : World}

/-- All trackers of a world are coherent. -/
def Coherent (w : World) : Prop := ∀ id, (w.tracker id).Coherent

namespace Coherent

theorem congr (coherent : w.Coherent) (same : w'.trackers = w.trackers) : w'.Coherent := fun id => by
  rw [tracker_congr same]
  exact coherent id

theorem withTracker (coherent : w.Coherent) (id : Nat) {change : Tracker → Tracker}
    (keeps : ∀ t : Tracker, t.Coherent → (change t).Coherent) :
    (w.withTracker id change).Coherent := by
  intro other
  rw [tracker_withTracker]
  split
  · exact keeps _ (coherent other)
  · exact coherent other

theorem report (coherent : w.Coherent) (target result : Ref) {kind : WrapState}
    (marked : kind.Marked) : (w.report target result kind).Coherent := by
  intro id
  rw [tracker_report]
  split
  · exact (coherent id).record w.heap target result marked
  · exact coherent id

theorem bind (coherent : w.Coherent) {cls made : Ref} {func : Option Ref} {args : List Value}
    {keywords : Keyed String Value} (done : w.bind cls func args keywords = .ok (w', made)) :
    w'.Coherent := by
  obtain ⟨target, -, -, -, -, rfl⟩ := bind_eq_ok_iff.mp done
  split
  · have hadd : (w.add (.partialOf (w.heap.fixing cls target args keywords))).Coherent :=
      coherent.congr rfl
    exact hadd.report target _ WrapState.marked_bound
  · exact coherent.congr rfl

theorem copy (coherent : w.Coherent) {deep : Bool} {r made : Ref}
    (done : w.copy deep r = .ok (w', made)) : w'.Coherent := by
  rcases copy_ok done with ⟨rfl, -⟩ | ⟨p, w₀, w₁, -, hw₀, hbind, htrackers, -⟩
  · exact coherent
  · have hstart : w₀.Coherent := by
      rcases hw₀ with rfl | rfl
      · exact coherent
      · exact coherent.congr rfl
    exact (hstart.bind hbind).congr htrackers

theorem imitate (coherent : w.Coherent) (tracked : Bool) (wrapper wrapped : Ref)
    (assigned updated : List String) :
    (w.imitate tracked wrapper wrapped assigned updated).1.Coherent := by
  rcases trackers_imitate w tracked wrapper wrapped assigned updated with hsame | ⟨-, -, hreport⟩
  · exact coherent.congr hsame
  · have hheap : World.Coherent
        { w with heap := (w.heap.imitate wrapper wrapped assigned updated).1 } :=
      coherent.congr rfl
    exact (hheap.report wrapped wrapper WrapState.marked_proxy).congr hreport

theorem addTracker (coherent : w.Coherent) (script : List Interception) :
    (w.addTracker script).Coherent := by
  intro id
  by_cases hnew : id = w.trackers.length
  · rw [hnew, tracker_addTracker_self]
    exact .scripted script
  · rw [tracker_addTracker_of_ne w script hnew]
    exact coherent id

theorem tracker_perish (w : World) (alive : Ref → Bool) (id : Nat) :
    (w.perform (.perish alive)).tracker id = (w.tracker id).prune alive := by
  change ((w.trackers.map fun t => t.prune alive)[id]?).getD default = _
  rw [List.getElem?_map, tracker]
  cases w.trackers[id]? <;> rfl

/-- Whatever happens, the tables remain coherent. -/
theorem perform (coherent : w.Coherent) (e : Event) (kinded : e.Kinded) :
    (w.perform e).Coherent := by
  cases e with
  | create shape attributes =>
      cases attributes <;> exact coherent.congr rfl
  | setAttribute r name value =>
      unfold World.perform
      dsimp only
      split <;> exact coherent.congr rfl
  | touch r =>
      exact coherent.congr rfl
  | bind cls func args keywords =>
      unfold World.perform
      dsimp only
      split
      next w' made hbind => exact coherent.bind hbind
      next => exact coherent
  | copy deep r =>
      unfold World.perform
      dsimp only
      split
      next w' made hcopy => exact coherent.copy hcopy
      next => exact coherent
  | imitate tracked wrapper wrapped assigned updated =>
      exact coherent.imitate tracked wrapper wrapped assigned updated
  | addTracker script =>
      exact coherent.addTracker script
  | install id =>
      unfold World.perform
      dsimp only
      split
      · exact coherent.congr (trackers_install w id)
      · exact coherent
  | uninstall id =>
      exact coherent.congr (trackers_uninstall w id)
  | record id target result kind =>
      refine coherent.withTracker id fun t ht => ht.record w.heap target result ?_
      rcases kinded with rfl | rfl
      · exact WrapState.marked_proxy
      · exact WrapState.marked_bound
  | intercept id =>
      exact coherent.withTracker id fun t ht => ht.intercept
  | perish alive =>
      intro id
      rw [tracker_perish]
      exact (coherent id).prune alive

theorem run (coherent : w.Coherent) (events : List Event) (kinded : ∀ e ∈ events, e.Kinded) :
    (w.run events).Coherent := by
  induction events generalizing w with
  | nil =>
      exact coherent
  | cons e rest ih =>
      exact ih (coherent.perform e (kinded e List.mem_cons_self)) fun e' member =>
        kinded e' (List.mem_cons_of_mem e member)

end Coherent

theorem coherent_initial : initial.Coherent := by
  intro id
  cases id with
  | zero => exact .scripted []
  | succ n => exact .scripted []

/-- Nothing is written of a wrap that there is nothing to record of, or no way to. -/
theorem record_of_idle (w : World) (id : Nat) {target result : Ref}
    (idle : result = target ∨ w.heap.callable target = false ∨
      w.heap.weaklyReferable result = false) (kind : WrapState) :
    w.record id target result kind = w := by
  have hsame : w.trackers.modify id (Tracker.record w.heap target result kind) = w.trackers := by
    refine List.ext_getElem? fun other => ?_
    rw [List.getElem?_modify]
    split
    · simp [Tracker.record_of_idle idle kind]
    · simp
  rw [record, withTracker, hsame]

theorem trackers_imitate_of_error {w : World} {tracked : Bool} {wrapper wrapped : Ref}
    {assigned updated : List String} {fault : Fault}
    (failed : (w.imitate tracked wrapper wrapped assigned updated).2 = .error fault) :
    (w.imitate tracked wrapper wrapped assigned updated).1.trackers = w.trackers := by
  rw [imitate] at failed ⊢
  split at failed
  next => rfl
  next => cases failed

/-- A call of the function that makes one object look like another leaves the trackers alone if it
fails, be it for its arguments or on the way. -/
theorem trackers_runImitation_of_error {w : World} {tracked : Bool} {a : Arguments} {fault : Fault}
    (failed : (w.runImitation tracked a).2 = .error fault) :
    (w.runImitation tracked a).1.trackers = w.trackers := by
  have hbox (w : World) (v : Value) : (w.box v).1.trackers = w.trackers := by
    unfold box
    split
    · rfl
    · split <;> rfl
    · rfl
  rw [runImitation] at failed ⊢
  dsimp only at failed ⊢
  split at failed
  next => rfl
  next i assigned updated hprepared =>
      dsimp only at failed ⊢
      rw [trackers_imitate_of_error (eq_error_of_map_eq_error failed), hbox, hbox]

/-- What a tracker tells of the result of a wrap that it can take record of. -/
theorem get?_record {w : World} {id : Nat} (numbered : id < w.trackers.length) {target result : Ref}
    (distinct : result ≠ target) (callable : w.heap.callable target = true)
    (referable : w.heap.weaklyReferable result = true) (kind : WrapState) :
    ((w.record id target result kind).tracker id).sources.get? result result =
        some ((w.tracker id).source target) ∧
      ((w.record id target result kind).tracker id).states.get? result result =
        some (.afterWrap kind ((w.tracker id).state target) ((w.tracker id).state result)) := by
  rw [tracker_record, if_pos ⟨rfl, numbered⟩, Tracker.record_eq_wrap distinct callable referable]
  exact ⟨WeakTable.get?_set_self .., WeakTable.get?_set_self ..⟩

/-- Along every history both tables of every tracker have entries for the same objects, and the
state of each of them has one of the bits for the last wrap and none beyond the four. A wrap that
fails, or that there is nothing to record of or no way to, leaves the tables of all trackers alone;
any other enters both tables, with the bit of its kind and the demoted bits of the target and of the
result. -/
theorem tables_coherent :
    (∀ events, (∀ e ∈ events, Event.Kinded e) → ∀ id,
      let t := (initial.run events).tracker id
      t.sources.keys = t.states.keys ∧
      (∀ r, (t.sources.get? r r).isSome = (t.states.get? r r).isSome) ∧
      ∀ r s, t.states.get? r r = some s →
        (s.toBits &&& 3 = 1 ∨ s.toBits &&& 3 = 2) ∧ s.toBits < 2 ^ 4) ∧
    ∀ w : World,
      (∀ cls func args keywords fault, w.bind cls func args keywords = .error fault →
        (w.perform (.bind cls func args keywords)).trackers = w.trackers) ∧
      (∀ tracked wrapper wrapped assigned updated fault,
        (w.imitate tracked wrapper wrapped assigned updated).2 = .error fault →
          (w.imitate tracked wrapper wrapped assigned updated).1.trackers = w.trackers) ∧
      (∀ tracked arguments fault, (w.runImitation tracked arguments).2 = .error fault →
        (w.runImitation tracked arguments).1.trackers = w.trackers) ∧
      ∀ id target result kind, id < w.trackers.length →
        if result = target ∨ w.heap.callable target = false ∨
            w.heap.weaklyReferable result = false then
          w.record id target result kind = w
        else
          let t := w.tracker id
          let t' := (w.record id target result kind).tracker id
          t'.sources.get? result result = some (t.source target) ∧
          ∃ s, t'.states.get? result result = some s ∧
            s.toBits = kind.toBits ||| (t.state target).demote.toBits |||
              ((t.state result).demote.toBits &&& 12) := by
  refine ⟨fun events kinded id => ?_, fun w => ⟨?_, ?_, ?_, ?_⟩⟩
  · have hcoherent := coherent_initial.run events kinded id
    exact ⟨hcoherent.keys, hcoherent.isSome_get?, fun r s found =>
      (hcoherent.marked_of_get? found).toBits⟩
  · intro cls func args keywords fault failed
    rw [perform, failed]
  · intro tracked wrapper wrapped assigned updated fault failed
    exact trackers_imitate_of_error failed
  · intro tracked arguments fault failed
    exact trackers_runImitation_of_error failed
  · intro id target result kind numbered
    split
    next idle => exact record_of_idle w id idle kind
    next busy =>
        simp only [not_or, Bool.not_eq_false] at busy
        obtain ⟨hsource, hstate⟩ := get?_record numbered busy.1 busy.2.1 busy.2.2 kind
        exact ⟨hsource, _, hstate, WrapState.toBits_afterWrap ..⟩

/-- A history of a function `f`, an object with fixed arguments `p` of it and a function `g`, in which
`g` is made to look like `p`, then `p` like `g`, then `g` like itself, and at last `f` dies. -/
def entanglement : List Event :=
  let f : Shape := .function (.ofSignature "f" "f" .plain Signature.anything (.echo "f"))
  let g : Shape := .function (.ofSignature "g" "g" .plain Signature.anything (.echo "g"))
  let size := initial.heap.size
  [.create f none, .create g none, .bind Catalog.trackedPartialClass (some size) [] [],
    .imitate true (size + 1) (size + 2) [] [], .imitate true (size + 2) (size + 1) [] [],
    .record mainTracker (size + 1) (size + 1) .bound, .perish fun r => r != size]

/-- Two objects remain, both recorded as proxies. -/
theorem tables_coherent_entanglement :
    let t := (initial.run entanglement).tracker mainTracker
    let size := initial.heap.size
    t.states.keys = [size + 2, size + 1] ∧ t.sources.keys = t.states.keys ∧
    ∃ s, t.states.get? (size + 2) (size + 2) = some s ∧ s.toBits = 13 ∧
      (s.toBits &&& 3 = 1 ∨ s.toBits &&& 3 = 2) := by
  intro t size
  have hkinded : ∀ e ∈ entanglement, e.Kinded := by
    simp [entanglement, Event.Kinded]
  obtain ⟨hkeys, -, hbits⟩ := tables_coherent.1 entanglement hkinded mainTracker
  have hstates : t.states.keys = [size + 2, size + 1] := by decide +kernel
  have hfound : t.states.get? (size + 2) (size + 2) = some ⟨true, false, true, true⟩ := by
    decide +kernel
  exact ⟨hstates, hkeys, _, hfound, rfl, (hbits _ _ hfound).1⟩

end World

end CallableKinds
