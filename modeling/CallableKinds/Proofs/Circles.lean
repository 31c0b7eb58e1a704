import CallableKinds.Proofs.Coherence
import CallableKinds.World.Lifetime
import Mathlib.Dynamics.PeriodicPts.Lemmas
import Mathlib.Logic.Relation

/-!
# Circles of sources

A tracker does not keep the callables alive that it has records of, but it keeps those that they go
back to. So where callables go back to each other in a circle, the records keep one another. Among
objects that do not refer to each other, and when nothing has a name any more, the records of the
callables on circles remain and all others go. A wrap closes a circle if what its target goes back
to leads on to the result.
-/

namespace CallableKinds

/-! ## Objects that do not refer to each other -/

namespace Heap

variable {h : Heap}

/-- Whether no object, apart from the builtin ones, is referred to by another. -/
def Isolated (h : Heap) : Prop :=
  ∀ r, initial.size ≤ r → ∀ x ∈ h.references r, x < initial.size

/-- Beyond the heap there is nothing that could refer to an object. -/
theorem isolated_of_forall_lt
    (apart : ∀ r < h.size, initial.size ≤ r → ∀ x ∈ h.references r, x < initial.size) :
    h.Isolated := by
  intro r late x referred
  by_cases inside : r < h.size
  · exact apart r inside late x referred
  · have beyond : h.objects[r]? = none := List.getElem?_eq_none (Nat.not_lt.mp inside)
    have nothing : h.object r = default := by rw [object, beyond, Option.getD_none]
    simp only [references, parts, shape, ownAttributes, nothing] at referred
    cases referred

/-- Nothing is reached through isolated objects. -/
theorem Isolated.mem_unreached_iff (isolated : h.Isolated) {remaining : List Ref}
    (distinct : remaining.Nodup) (late : ∀ r ∈ remaining, initial.size ≤ r) (pending : List Ref)
    (x : Ref) : x ∈ h.unreached remaining pending ↔ x ∈ remaining ∧ x ∉ pending := by
  fun_induction h.unreached remaining pending with
  | case1 => simp
  | case2 remaining r pending known ih =>
      have known : r ∈ remaining := by simpa using known
      rw [ih (distinct.erase r) fun x member => late x (List.mem_of_mem_erase member)]
      rw [distinct.mem_erase_iff, List.mem_append, List.mem_cons, not_or, not_or]
      constructor
      · rintro ⟨⟨different, member⟩, -, elsewhere⟩
        exact ⟨member, different, elsewhere⟩
      · rintro ⟨member, different, elsewhere⟩
        refine ⟨⟨different, member⟩, fun referred => ?_, elsewhere⟩
        exact Nat.not_lt.mpr (late x member) (isolated r (late r known) x referred)
  | case3 remaining r pending unknown ih =>
      rw [ih distinct late, List.mem_cons, not_or]
      have unknown : r ∉ remaining := by simpa using unknown
      constructor
      · rintro ⟨member, elsewhere⟩
        exact ⟨member, fun same => unknown (same ▸ member), elsewhere⟩
      · rintro ⟨member, -, elsewhere⟩
        exact ⟨member, elsewhere⟩

/-- Isolated objects are alive as long as they are roots. -/
theorem Isolated.mem_dead_iff (isolated : h.Isolated) (roots : List Ref) (x : Ref) :
    x ∈ h.dead roots ↔ initial.size ≤ x ∧ x < h.size ∧ x ∉ roots := by
  have drawn : ∀ x, x ∈ (List.range h.size).drop initial.size ↔
      initial.size ≤ x ∧ x < h.size := by
    intro x
    rw [List.range_eq_range', List.drop_range', List.mem_range'_1]
    omega
  rw [dead, isolated.mem_unreached_iff (List.nodup_range.sublist (List.drop_sublist _ _))
    fun r member => ((drawn r).mp member).1]
  rw [drawn, and_assoc]

end Heap

/-! ## Going back -/

namespace Tracker

variable {t : Tracker} {n : Nat} {r s : Ref}

/-- A callable goes back to another one by its record. -/
def GoesBack (t : Tracker) (r s : Ref) : Prop := t.sources.get? r r = some s

instance (t : Tracker) (r s : Ref) : Decidable (t.GoesBack r s) :=
  inferInstanceAs (Decidable (_ = some s))

/-- A callable leads to another one if it is the other, or goes back to a callable that leads
there. -/
def LeadsTo (t : Tracker) : Ref → Ref → Prop := Relation.ReflTransGen t.GoesBack

/-- A callable is on a circle if it goes back to itself, in one or more steps. -/
def Circular (t : Tracker) (r : Ref) : Prop := Relation.TransGen t.GoesBack r r

/-- Whether no callable is on a circle. -/
def Acyclic (t : Tracker) : Prop := ∀ r, ¬ t.Circular r

theorem GoesBack.eq {s' : Ref} (back : t.GoesBack r s) (back' : t.GoesBack r s') : s = s' :=
  Option.some.inj (back.symm.trans back')

/-- The source of a callable is itself, or what it goes back to. -/
theorem source_eq_or_goesBack (t : Tracker) (r : Ref) :
    t.source r = r ∨ t.GoesBack r (t.source r) := by
  rw [GoesBack, source]
  cases t.sources.get? r r with
  | none => exact Or.inl rfl
  | some s => exact Or.inr rfl

/-- A callable on a circle is what some callable goes back to. -/
theorem Circular.exists_goesBack (circular : t.Circular r) : ∃ q, t.GoesBack q r := by
  obtain ⟨q, -, back⟩ := Relation.TransGen.tail'_iff.mp circular
  exact ⟨q, back⟩

theorem goesBack_put_self (t : Tracker) (r source : Ref) (state : WrapState) :
    (t.put r source state).GoesBack r source := by
  simp [GoesBack, put]

theorem goesBack_put_of_ne {x : Ref} (different : x ≠ r) (source : Ref) (state : WrapState) :
    (t.put r source state).GoesBack x s ↔ t.GoesBack x s := by
  simp only [GoesBack, put, WeakTable.get?_set_of_ne _ different]

/-! ## Closing a circle -/

section Put

variable {source : Ref} {state : WrapState}

/-- On the way to a callable its own record does not matter. -/
theorem LeadsTo.of_goesBack {t' : Tracker} {x : Ref}
    (kept : ∀ x s, x ≠ r → t.GoesBack x s → t'.GoesBack x s) (leads : t.LeadsTo x r) :
    t'.LeadsTo x r := by
  induction leads using Relation.ReflTransGen.head_induction_on with
  | refl => exact .refl
  | @head x y back _ ih =>
      by_cases same : x = r
      · rw [same]
        exact .refl
      · exact .head (kept x y same back) ih

theorem leadsTo_put_iff {x : Ref} : (t.put r source state).LeadsTo x r ↔ t.LeadsTo x r := by
  constructor
  · exact LeadsTo.of_goesBack fun _ _ different => (goesBack_put_of_ne different _ _).mp
  · exact LeadsTo.of_goesBack fun _ _ different => (goesBack_put_of_ne different _ _).mpr

/-- A way after a record was written is a way from before, or goes through the record. -/
theorem transGen_put_cases {x y : Ref}
    (way : Relation.TransGen (t.put r source state).GoesBack x y) :
    Relation.TransGen t.GoesBack x y ∨
      ((t.put r source state).LeadsTo x r ∧ (t.put r source state).LeadsTo source y) := by
  induction way using Relation.TransGen.head_induction_on with
  | @single x back =>
      by_cases same : x = r
      · subst same
        rw [back.eq (goesBack_put_self t x source state)]
        exact Or.inr ⟨.refl, .refl⟩
      · exact Or.inl (.single ((goesBack_put_of_ne same _ _).mp back))
  | @head x z back way ih =>
      by_cases same : x = r
      · subst same
        rw [back.eq (goesBack_put_self t x source state)] at way
        exact Or.inr ⟨.refl, way.to_reflTransGen⟩
      · rcases ih with old | ⟨there, further⟩
        · exact Or.inl (.head ((goesBack_put_of_ne same _ _).mp back) old)
        · exact Or.inr ⟨.head back there, further⟩

/-- A record closes a circle exactly if the source in it leads to the callable that it is about. -/
theorem Acyclic.put_iff (acyclic : t.Acyclic) :
    (t.put r source state).Acyclic ↔ ¬ t.LeadsTo source r := by
  constructor
  · intro later leads
    exact later r (.head' (goesBack_put_self t r source state) (leadsTo_put_iff.mpr leads))
  · intro apart x circular
    rcases transGen_put_cases circular with old | ⟨there, further⟩
    · exact acyclic x old
    · exact apart (leadsTo_put_iff.mp (further.trans there))

end Put

/-- Whether a tracker takes no record of a wrap. -/
def Unrecorded (h : Heap) (target result : Ref) : Prop :=
  result = target ∨ h.callable target = false ∨ h.weaklyReferable result = false

/-- A wrap closes a circle exactly if a record is taken of it and what its target goes back to leads
to its result. -/
theorem Acyclic.record_iff (acyclic : t.Acyclic) (h : Heap) (target result : Ref)
    (kind : WrapState) :
    (t.record h target result kind).Acyclic ↔
      Unrecorded h target result ∨ ¬ t.LeadsTo (t.source target) result := by
  by_cases unrecorded : Unrecorded h target result
  · have same : t.record h target result kind = t := by
      rcases unrecorded with same | plain | plain
      · rw [same, record_self]
      · simp [record, plain]
      · simp [record, plain]
    rw [same]
    exact iff_of_true acyclic (Or.inl unrecorded)
  · have recorded : t.record h target result kind = t.wrap target result kind := by
      simp only [Unrecorded, not_or, Bool.not_eq_false] at unrecorded
      exact record_eq_wrap unrecorded.1 unrecorded.2.1 unrecorded.2.2
    rw [recorded, wrap, acyclic.put_iff]
    exact (or_iff_right unrecorded).symm

/-! ## What the tables hold -/

/-- The tables have records of the same objects, one of each. All of these can die. -/
structure Tidy (t : Tracker) (n : Nat) : Prop where
  within : t.Within n
  slots : t.sources.slots = t.states.slots
  distinct : t.sources.entries.Distinct
  late : ∀ e ∈ t.sources.entries, Heap.initial.size ≤ e.2.key

namespace Tidy

theorem scripted (script : List Interception) (n : Nat) : (Tracker.scripted script).Tidy n :=
  ⟨.scripted script n, rfl, List.nodup_nil, nofun⟩

theorem put (tidy : t.Tidy n) (hr : r < n) (late : Heap.initial.size ≤ r) {source : Ref}
    (hsource : source < n) (state : WrapState) : (t.put r source state).Tidy n where
  within := tidy.within.put hr hsource state
  slots := by
    rw [Tracker.put, WeakTable.slots_set, WeakTable.slots_set, tidy.slots]
  distinct := tidy.distinct.put _ _
  late e member := by
    rcases WeakTable.mem_entries_of_mem_set member with rfl | member
    · exact late
    · exact tidy.late e member

theorem record (tidy : t.Tidy n) (h : Heap) {target result : Ref} (htarget : target < n)
    (hresult : result < n) (late : Heap.initial.size ≤ result) (kind : WrapState) :
    (t.record h target result kind).Tidy n := by
  rcases t.record_cases h target result kind with same | ⟨-, -, -, wrapped⟩
  · rwa [same]
  · rw [wrapped]
    exact tidy.put hresult late (tidy.within.source_lt htarget) _

theorem prune (tidy : t.Tidy n) (alive : Ref → Bool) : (t.prune alive).Tidy n where
  within := tidy.within.prune alive
  slots := by
    rw [Tracker.prune, WeakTable.slots_prune, WeakTable.slots_prune, tidy.slots]
  distinct := tidy.distinct.sublist List.filter_sublist
  late e member := tidy.late e (WeakTable.mem_entries_of_mem_prune member).1

theorem goesBack_of_mem (tidy : t.Tidy n) {e : Nat × WeakEntry Ref Ref}
    (member : e ∈ t.sources.entries) : t.GoesBack e.2.key e.2.value := by
  have found := WeakTable.get?_of_mem tidy.distinct member
  rwa [(tidy.within.sources e member).1] at found

theorem bounds_of_goesBack (tidy : t.Tidy n) (back : t.GoesBack r s) :
    Heap.initial.size ≤ r ∧ r < n ∧ s < n := by
  obtain ⟨e, member, -, rfl, rfl⟩ := WeakTable.exists_entry_of_get? back
  exact ⟨tidy.late e member, (tidy.within.sources e member).2⟩

theorem mem_values_iff (tidy : t.Tidy n) : s ∈ t.sources.values ↔ ∃ r, t.GoesBack r s := by
  rw [WeakTable.values, List.mem_map]
  constructor
  · rintro ⟨e, member, rfl⟩
    exact ⟨e.2.key, tidy.goesBack_of_mem member⟩
  · rintro ⟨r, back⟩
    obtain ⟨e, member, -, -, same⟩ := WeakTable.exists_entry_of_get? back
    exact ⟨e, member, same⟩

/-- What a tracker knows of, it knows the source of. -/
theorem knows_iff (tidy : t.Tidy n) : t.Knows r ↔ ∃ s, t.GoesBack r s := by
  have alike : (t.states.get? r r).isSome = (t.sources.get? r r).isSome := by
    rw [WeakTable.isSome_get?, WeakTable.isSome_get?, tidy.slots]
  rw [Knows, Option.ne_none_iff_isSome, Option.ne_none_iff_isSome, alike, or_self,
    Option.isSome_iff_exists]
  rfl

/-- The tables are empty if the tracker knows of nothing. -/
theorem sizes_eq_zero_iff (tidy : t.Tidy n) : t.sizes = (0, 0) ↔ ∀ r, ¬ t.Knows r := by
  have lengths : t.sources.entries.length = t.states.entries.length := by
    simpa [WeakTable.slots] using congrArg List.length tidy.slots
  rw [sizes, ← lengths, Prod.mk.injEq, and_self, List.length_eq_zero_iff]
  constructor
  · intro nothing r knows
    obtain ⟨s, back⟩ := tidy.knows_iff.mp knows
    obtain ⟨e, member, -⟩ := WeakTable.exists_entry_of_get? back
    rw [nothing] at member
    cases member
  · intro nothing
    refine List.eq_nil_iff_forall_not_mem.mpr fun e member => ?_
    exact nothing e.2.key (tidy.knows_iff.mpr ⟨_, tidy.goesBack_of_mem member⟩)

/-! ## Deaths -/

variable {alive : Ref → Bool}

theorem goesBack_prune_iff (tidy : t.Tidy n) :
    (t.prune alive).GoesBack r s ↔ alive r = true ∧ t.GoesBack r s := by
  cases living : alive r with
  | true =>
      rw [GoesBack, Tracker.prune, tidy.within.placed_sources.get?_prune living]
      exact (and_iff_right rfl).symm
  | false =>
      rw [GoesBack, Tracker.prune, WeakTable.get?_prune_of_dead living]
      simp

/-- If the sources live, so do the circles. -/
theorem circular_prune_iff (tidy : t.Tidy n) (living : ∀ s ∈ t.sources.values, alive s = true) :
    (t.prune alive).Circular r ↔ t.Circular r := by
  constructor
  · intro circular
    exact Relation.TransGen.mono (fun _ _ back => (tidy.goesBack_prune_iff.mp back).2) _ _ circular
  · intro circular
    have step : ∀ {q s}, (∃ p, t.GoesBack p q) → t.GoesBack q s → (t.prune alive).GoesBack q s :=
      fun source back =>
        tidy.goesBack_prune_iff.mpr ⟨living _ (tidy.mem_values_iff.mpr source), back⟩
    have along : ∀ {s}, Relation.TransGen t.GoesBack r s →
        Relation.TransGen (t.prune alive).GoesBack r s := by
      intro s way
      induction way with
      | single back => exact .single (step circular.exists_goesBack back)
      | tail way back ih =>
          obtain ⟨p, -, before⟩ := Relation.TransGen.tail'_iff.mp way
          exact ih.tail (step ⟨p, before⟩ back)
    exact along circular

/-- If each callable with a record is what another one goes back to, they are all on circles. -/
theorem circular_of_sources (tidy : t.Tidy n)
    (sources : ∀ r s, t.GoesBack r s → ∃ q, t.GoesBack q r) (back : t.GoesBack r s) :
    t.Circular r := by
  -- Going from a callable to one that goes back to it is injective, as it can be undone; among
  -- finitely many callables it comes round.
  let Recorded := {x : Fin n // ∃ s, t.GoesBack x s}
  have comes : ∀ x : Recorded, ∃ q : Recorded, t.GoesBack q.1 x.1 := by
    rintro ⟨x, s, back⟩
    obtain ⟨q, before⟩ := sources x s back
    exact ⟨⟨⟨q, (tidy.bounds_of_goesBack before).2.1⟩, x, before⟩, before⟩
  choose before comesFrom using comes
  have injective : Function.Injective before := by
    intro x y same
    have back := comesFrom x
    rw [same] at back
    exact Subtype.ext (Fin.ext (back.eq (comesFrom y)))
  have further : ∀ (count : Nat) (x : Recorded),
      Relation.TransGen t.GoesBack (before^[count + 1] x).1 x.1 := by
    intro count
    induction count with
    | zero => exact fun x => .single (comesFrom x)
    | succ count ih =>
        intro x
        rw [Function.iterate_succ_apply]
        exact (ih (before x)).tail (comesFrom x)
  let start : Recorded := ⟨⟨r, (tidy.bounds_of_goesBack back).2.1⟩, s, back⟩
  obtain ⟨count, positive, round⟩ := injective.mem_periodicPts start
  have circle := further (count - 1) start
  rwa [Nat.sub_add_cancel positive, round] at circle

end Tidy

end Tracker

namespace World

/-! ## Settling -/

/-- What holds at first and is kept by each round of deaths holds after all deaths, and then another
round takes no entry. -/
theorem settle_induction {P : World → Prop} (names : List Ref)
    (kept : ∀ w : World, P w → P (w.bury names)) {w : World} (holds : P w) :
    P (w.settle names) ∧ (w.settle names).entries ≤ ((w.settle names).bury names).entries := by
  fun_induction w.settle names with
  | case1 w buried fewer ih => exact ih (kept w holds)
  | case2 w buried done => exact ⟨holds, Nat.not_lt.mp done⟩

/-- A world with one tracker, the objects of which are isolated. -/
structure Lone (w : World) (t : Tracker) : Prop where
  trackers : w.trackers = [t]
  isolated : w.heap.Isolated
  tidy : t.Tidy w.heap.size

variable {w : World} {t : Tracker}

theorem Lone.tracker (lone : w.Lone t) : w.tracker mainTracker = t := by
  rw [World.tracker, lone.trackers]
  rfl

/-- What lives if nothing has a name. -/
def nameless (w : World) (r : Ref) : Bool := !(w.heap.dead (w.roots [])).contains r

/-- Without names, only sources keep objects alive. -/
theorem Lone.nameless_iff_not_dead (lone : w.Lone t) (r : Ref) :
    w.nameless r = true ↔
      ¬ (Heap.initial.size ≤ r ∧ r < w.heap.size ∧ r ∉ t.sources.values) := by
  have roots : w.roots [] = t.sources.values := by
    simp [World.roots, lone.trackers]
  rw [nameless, Bool.not_eq_true', ← Bool.not_eq_true, List.contains_iff_mem,
    lone.isolated.mem_dead_iff, roots]

/-- Of the objects with records those live that are sources. -/
theorem Lone.nameless_iff (lone : w.Lone t) {r s : Ref} (back : t.GoesBack r s) :
    w.nameless r = true ↔ ∃ q, t.GoesBack q r := by
  obtain ⟨late, inside, -⟩ := lone.tidy.bounds_of_goesBack back
  rw [lone.nameless_iff_not_dead, lone.tidy.mem_values_iff]
  simp [late, inside]

/-- Sources live. -/
theorem Lone.nameless_of_mem_values (lone : w.Lone t) {s : Ref}
    (member : s ∈ t.sources.values) : w.nameless s = true :=
  (lone.nameless_iff_not_dead s).mpr fun dead => dead.2.2 member

theorem Lone.bury (lone : w.Lone t) : (w.bury []).Lone (t.prune w.nameless) where
  trackers := by
    rw [World.bury, lone.trackers]
    rfl
  isolated := lone.isolated
  tidy := lone.tidy.prune _

/-- A round of deaths that takes no entry finds a source in every callable with a record. -/
theorem Lone.sources_of_entries_le (lone : w.Lone t)
    (done : w.entries ≤ (w.bury []).entries) {r s : Ref} (back : t.GoesBack r s) :
    ∃ q, t.GoesBack q r := by
  simp only [World.entries, lone.bury.trackers, lone.trackers, List.foldr_cons, List.foldr_nil,
    Nat.add_zero, Tracker.prune, WeakTable.prune] at done
  have sources := List.length_filter_le (fun e => w.nameless e.2.key) t.sources.entries
  have states := List.length_filter_le (fun e => w.nameless e.2.key) t.states.entries
  have all : (t.sources.entries.filter fun e => w.nameless e.2.key).length =
      t.sources.entries.length := by omega
  obtain ⟨e, member, -, rfl, -⟩ := WeakTable.exists_entry_of_get? back
  exact (lone.nameless_iff back).mp (List.length_filter_eq_length_iff.mp all e member)

/-- When nothing has a name any more, the records of the callables on circles remain, and no
others. -/
theorem Lone.settle (lone : w.Lone t) :
    ∃ t', (w.settle []).Lone t' ∧ ∀ r, t'.Knows r ↔ t.Circular r := by
  obtain ⟨⟨t', lone', same⟩, done⟩ := settle_induction []
    (P := fun w' => ∃ t', w'.Lone t' ∧ ∀ r, t'.Circular r ↔ t.Circular r)
    (fun w' ⟨t', lone', same⟩ => ⟨_, lone'.bury, fun r =>
      (lone'.tidy.circular_prune_iff fun _ => lone'.nameless_of_mem_values).trans (same r)⟩)
    ⟨t, lone, fun _ => Iff.rfl⟩
  refine ⟨t', lone', fun r => ?_⟩
  rw [← same r, lone'.tidy.knows_iff]
  constructor
  · rintro ⟨s, back⟩
    exact lone'.tidy.circular_of_sources (fun _ _ => lone'.sources_of_entries_le done) back
  · intro circular
    obtain ⟨s, back, -⟩ := Relation.TransGen.head'_iff.mp circular
    exact ⟨s, back⟩

/-- The tables are empty then exactly if there is no circle. -/
theorem Lone.sizes_settle_iff (lone : w.Lone t) :
    ((w.settle []).tracker mainTracker).sizes = (0, 0) ↔ t.Acyclic := by
  obtain ⟨t', lone', knows⟩ := lone.settle
  rw [lone'.tracker, lone'.tidy.sizes_eq_zero_iff]
  exact forall_congr' fun r => not_congr (knows r)

/-! ## Runs of wraps -/

/-- A wrap to take record of: what it was made from, what it made, and its kind. -/
structure Wrap where
  target : Ref
  result : Ref
  kind : WrapState

/-- Whether a wrap is about objects of a heap, and what it made can die. -/
def Wrap.Among (x : Wrap) (h : Heap) : Prop :=
  x.target < h.size ∧ x.result < h.size ∧ Heap.initial.size ≤ x.result

/-- The world after the main tracker was told of some wraps, one after another. -/
def recordAll (w : World) (wraps : List Wrap) : World :=
  wraps.foldl (fun w x => w.record mainTracker x.target x.result x.kind) w

theorem Lone.start {script : List Interception} (trackers : w.trackers = [.scripted script])
    (isolated : w.heap.Isolated) : w.Lone (.scripted script) :=
  ⟨trackers, isolated, .scripted script _⟩

theorem Lone.record (lone : w.Lone t) {x : Wrap} (among : x.Among w.heap) :
    (w.record mainTracker x.target x.result x.kind).Lone
      (t.record w.heap x.target x.result x.kind) where
  trackers := by
    rw [World.record, withTracker, lone.trackers]
    rfl
  isolated := lone.isolated
  tidy := lone.tidy.record w.heap among.1 among.2.1 among.2.2 x.kind

theorem Lone.recordAll (lone : w.Lone t) {wraps : List Wrap}
    (among : ∀ x ∈ wraps, x.Among w.heap) : ∃ t', (w.recordAll wraps).Lone t' := by
  induction wraps generalizing w t with
  | nil => exact ⟨t, lone⟩
  | cons x rest ih =>
      exact ih (lone.record (among x List.mem_cons_self)) fun y member =>
        among y (List.mem_cons_of_mem x member)

/-- Whether nothing is made by a wrap after it was wrapped itself. -/
def MadeFirst (wraps : List Wrap) : Prop := wraps.Pairwise fun x y => y.result ≠ x.target

/-- If nothing that is yet to be made is a source, wraps of what was made close no circle. -/
theorem Lone.acyclic_recordAll (lone : w.Lone t) {wraps : List Wrap}
    (among : ∀ x ∈ wraps, x.Among w.heap) (first : MadeFirst wraps) (acyclic : t.Acyclic)
    (unused : ∀ x ∈ wraps, ∀ q, ¬ t.GoesBack q x.result) {t' : Tracker}
    (later : (w.recordAll wraps).Lone t') : t'.Acyclic := by
  induction wraps generalizing w t with
  | nil =>
      have same : t' = t := by rw [← later.tracker, ← lone.tracker]; rfl
      exact same ▸ acyclic
  | cons x rest ih =>
      obtain ⟨free, first⟩ := List.pairwise_cons.mp first
      refine ih (lone.record (among x List.mem_cons_self))
        (fun y member => among y (List.mem_cons_of_mem x member)) first ?_ ?_ later
      · rw [acyclic.record_iff]
        refine or_iff_not_imp_left.mpr fun recorded leads => ?_
        rcases Relation.ReflTransGen.cases_tail leads with same | ⟨q, -, back⟩
        · obtain own | back := t.source_eq_or_goesBack x.target
          · exact recorded (Or.inl (same.trans own))
          · exact unused x List.mem_cons_self x.target (same ▸ back)
        · exact unused x List.mem_cons_self q back
      · intro y member q back
        rcases t.record_cases w.heap x.target x.result x.kind with same | ⟨-, -, -, wrapped⟩
        · exact unused y (List.mem_cons_of_mem x member) q (same ▸ back)
        rw [wrapped] at back
        by_cases new : q = x.result
        · rw [new] at back
          have source := back.eq (Tracker.goesBack_put_self t _ _ _)
          obtain own | back := t.source_eq_or_goesBack x.target
          · exact free y member (source.trans own)
          · exact unused y (List.mem_cons_of_mem x member) x.target (source ▸ back)
        · exact unused y (List.mem_cons_of_mem x member) q
            ((Tracker.goesBack_put_of_ne new _ _).mp back)

/-- After any wraps among objects that do not refer to each other, and when nothing has a name any
more, the tables of the tracker are empty exactly if no callable goes back to itself; the records
that remain are those of the callables that do. The first circle is closed by a wrap, taken record
of, whose target goes back to something that leads to its result. If nothing is made by a wrap after
it was wrapped itself, there is no circle. -/
theorem tables_empty_iff_acyclic {w : World} (isolated : w.heap.Isolated)
    {script : List Interception} (trackers : w.trackers = [.scripted script]) {wraps : List Wrap}
    (among : ∀ x ∈ wraps, x.Among w.heap) :
    let t := (w.recordAll wraps).tracker mainTracker
    let t' := ((w.recordAll wraps).settle []).tracker mainTracker
    (t'.sizes = (0, 0) ↔ t.Acyclic) ∧
      (∀ r, t'.Knows r ↔ t.Circular r) ∧
      (∀ x : Wrap, t.Acyclic →
        ((t.record w.heap x.target x.result x.kind).Acyclic ↔
          Tracker.Unrecorded w.heap x.target x.result ∨
            ¬ t.LeadsTo (t.source x.target) x.result)) ∧
      (MadeFirst wraps → t'.sizes = (0, 0)) := by
  have start := Lone.start trackers isolated
  obtain ⟨t, lone⟩ := start.recordAll among
  obtain ⟨t', settled, knows⟩ := lone.settle
  have sizes := lone.sizes_settle_iff
  simp only [lone.tracker, settled.tracker] at sizes ⊢
  refine ⟨sizes, knows, fun x acyclic => acyclic.record_iff _ _ _ _, fun first => ?_⟩
  have unknown : ∀ q s, ¬ (Tracker.scripted script).GoesBack q s := nofun
  refine sizes.mpr (start.acyclic_recordAll among first ?_ (fun x _ q => unknown q _) lone)
  intro r circular
  obtain ⟨q, back⟩ := circular.exists_goesBack
  exact unknown q r back

/-- A world with two functions besides the builtin objects. -/
def twoFunctions : World :=
  let f : FunctionInfo := .ofSignature "f" "f" .plain [] (.echo "f")
  let g : FunctionInfo := .ofSignature "g" "g" .plain [] (.echo "g")
  (initial.add (.function f)).add (.function g)

theorem isolated_twoFunctions : twoFunctions.heap.Isolated :=
  Heap.isolated_of_forall_lt (by decide +kernel)

/-- One of the functions wraps the other. -/
def wrapOnce : List Wrap := [⟨Heap.initial.size, Heap.initial.size + 1, .proxy⟩]

/-- Each of the functions wraps the other. -/
def wrapBoth : List Wrap := wrapOnce ++ [⟨Heap.initial.size + 1, Heap.initial.size, .proxy⟩]

instance (x : Wrap) (h : Heap) : Decidable (x.Among h) :=
  inferInstanceAs (Decidable (_ ∧ _ ∧ _))

theorem among_wrapBoth : ∀ x ∈ wrapBoth, x.Among twoFunctions.heap := by
  decide +kernel

theorem tables_empty_iff_acyclic_wrapOnce :
    (((twoFunctions.recordAll wrapOnce).settle []).tracker mainTracker).sizes = (0, 0) := by
  have among : ∀ x ∈ wrapOnce, x.Among twoFunctions.heap := by decide +kernel
  obtain ⟨-, -, -, first⟩ := tables_empty_iff_acyclic isolated_twoFunctions rfl among
  exact first (List.pairwise_singleton _ _)

/-- The function that wrapped the other first then goes back to itself, and nothing ends that. -/
theorem not_tables_empty :
    ¬ ∀ (w : World) (wraps : List Wrap), w.heap.Isolated → w.trackers = [.scripted []] →
      (∀ x ∈ wraps, x.Among w.heap) →
      (((w.recordAll wraps).settle []).tracker mainTracker).sizes = (0, 0) := by
  intro emptied
  obtain ⟨t, lone⟩ := (Lone.start rfl isolated_twoFunctions).recordAll among_wrapBoth
  have acyclic : t.Acyclic := lone.sizes_settle_iff.mp
    (emptied twoFunctions wrapBoth isolated_twoFunctions rfl among_wrapBoth)
  have back : t.GoesBack Heap.initial.size Heap.initial.size := by
    rw [← lone.tracker]
    exact by decide +kernel
  exact acyclic _ (.single back)

end World

end CallableKinds
