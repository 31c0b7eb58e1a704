import CallableKinds.Proofs.WeakTable
import CallableKinds.Wrapping.Tracker
import Mathlib.Data.List.Basic

/-!
# Records of trackers

What the operations of a tracker do to the sources and the states that it tells. Its tables hold
objects below a bound only, each at its own place, so an object beyond the bound has no record.
-/

namespace CallableKinds

namespace Tracker

variable {t : Tracker} {n : Nat} {r target result : Ref} {kind state : WrapState}

/-- The tracker with a record of a wrap. -/
def wrap (t : Tracker) (target result : Ref) (kind : WrapState) : Tracker :=
  t.put result (t.source target) (.afterWrap kind (t.state target) (t.state result))

/-- Whether a tracker has a record of an object. -/
def Knows (t : Tracker) (r : Ref) : Prop :=
  t.sources.get? r r ≠ none ∨ t.states.get? r r ≠ none

instance (t : Tracker) (r : Ref) : Decidable (t.Knows r) :=
  inferInstanceAs (Decidable (_ ∨ _))

theorem source_of_not_knows (unknown : ¬ t.Knows r) : t.source r = r := by
  have hnone : t.sources.get? r r = none := by
    by_contra hsome
    exact unknown (Or.inl hsome)
  rw [source, hnone, Option.getD_none]

theorem state_of_not_knows (unknown : ¬ t.Knows r) : t.state r = .unwrapped := by
  have hnone : t.states.get? r r = none := by
    by_contra hsome
    exact unknown (Or.inr hsome)
  rw [Tracker.state, hnone, Option.getD_none]

/-! ### What the operations tell -/

@[simp] theorem source_put_self (t : Tracker) (r source : Ref) (state : WrapState) :
    (t.put r source state).source r = source := by
  simp [Tracker.source, put]

theorem source_put_of_ne {x : Ref} (h : x ≠ r) (source : Ref) (state : WrapState) :
    (t.put r source state).source x = t.source x := by
  simp only [Tracker.source, put, WeakTable.get?_set_of_ne _ h]

@[simp] theorem state_put_self (t : Tracker) (r source : Ref) (state : WrapState) :
    (t.put r source state).state r = state := by
  simp [Tracker.state, put]

theorem state_put_of_ne {x : Ref} (h : x ≠ r) (source : Ref) (state : WrapState) :
    (t.put r source state).state x = t.state x := by
  simp only [Tracker.state, put, WeakTable.get?_set_of_ne _ h]

theorem knows_put_of_ne {x : Ref} (h : x ≠ r) {source : Ref} {state : WrapState} :
    (t.put r source state).Knows x ↔ t.Knows x := by
  simp only [Knows, put, WeakTable.get?_set_of_ne _ h]

theorem knows_wrap (t : Tracker) (target result : Ref) (kind : WrapState) :
    (t.wrap target result kind).Knows result := by
  left
  simp [wrap, put]

/-- A tracker takes record of a wrap of two objects, the target callable and the result one that can
be referred to weakly. -/
theorem record_eq_wrap {h : Heap} (distinct : result ≠ target)
    (callable : h.callable target = true) (referable : h.weaklyReferable result = true) :
    t.record h target result kind = t.wrap target result kind := by
  simp [record, wrap, distinct, callable, referable]

theorem record_cases (t : Tracker) (h : Heap) (target result : Ref) (kind : WrapState) :
    t.record h target result kind = t ∨
    (result ≠ target ∧ h.callable target = true ∧ h.weaklyReferable result = true ∧
      t.record h target result kind = t.wrap target result kind) := by
  rw [record]
  split
  next => exact Or.inl rfl
  next hrecords =>
      simp only [Bool.or_eq_true, decide_eq_true_eq, Bool.not_eq_true', not_or,
        Bool.not_eq_false] at hrecords
      exact Or.inr ⟨hrecords.1.1, hrecords.1.2, hrecords.2, rfl⟩

/-! ### Objects below a bound -/

/-- The tables of a tracker have every entry at the place of its key, and hold objects below a bound
only. -/
structure Within (t : Tracker) (n : Nat) : Prop where
  sources : ∀ e ∈ t.sources.entries, e.1 = e.2.key ∧ e.2.key < n ∧ e.2.value < n
  states : ∀ e ∈ t.states.entries, e.1 = e.2.key ∧ e.2.key < n

namespace Within

theorem scripted (script : List Interception) (n : Nat) : (Tracker.scripted script).Within n :=
  ⟨nofun, nofun⟩

theorem mono (within : t.Within n) {m : Nat} (le : n ≤ m) : t.Within m where
  sources e member := by
    obtain ⟨hplace, hkey, hvalue⟩ := within.sources e member
    exact ⟨hplace, Nat.lt_of_lt_of_le hkey le, Nat.lt_of_lt_of_le hvalue le⟩
  states e member := by
    obtain ⟨hplace, hkey⟩ := within.states e member
    exact ⟨hplace, Nat.lt_of_lt_of_le hkey le⟩

theorem put (within : t.Within n) (hr : r < n) {source : Ref} (hsource : source < n)
    (state : WrapState) : (t.put r source state).Within n where
  sources e member := by
    rcases WeakTable.mem_entries_of_mem_set member with rfl | member
    · exact ⟨rfl, hr, hsource⟩
    · exact within.sources e member
  states e member := by
    rcases WeakTable.mem_entries_of_mem_set member with rfl | member
    · exact ⟨rfl, hr⟩
    · exact within.states e member

theorem prune (within : t.Within n) (alive : Ref → Bool) : (t.prune alive).Within n where
  sources e member := within.sources e (WeakTable.mem_entries_of_mem_prune member).1
  states e member := within.states e (WeakTable.mem_entries_of_mem_prune member).1

theorem source_lt (within : t.Within n) (hr : r < n) : t.source r < n := by
  rw [source]
  cases hget : t.sources.get? r r with
  | none =>
      exact hr
  | some s =>
      obtain ⟨e, member, -, -, rfl⟩ := WeakTable.exists_entry_of_get? hget
      exact (within.sources e member).2.2

theorem wrap (within : t.Within n) (htarget : target < n) (hresult : result < n)
    (kind : WrapState) : (t.wrap target result kind).Within n :=
  within.put hresult (within.source_lt htarget) _

/-- An object beyond the bound has no record. -/
theorem not_knows (within : t.Within n) (hr : n ≤ r) : ¬ t.Knows r := by
  rintro (hknows | hknows)
  · obtain ⟨s, hget⟩ := Option.ne_none_iff_exists'.mp hknows
    obtain ⟨e, member, -, rfl, -⟩ := WeakTable.exists_entry_of_get? hget
    exact Nat.not_lt.mpr hr (within.sources e member).2.1
  · obtain ⟨s, hget⟩ := Option.ne_none_iff_exists'.mp hknows
    obtain ⟨e, member, -, rfl, -⟩ := WeakTable.exists_entry_of_get? hget
    exact Nat.not_lt.mpr hr (within.states e member).2

/-- An object beyond the bound is the source of no other. -/
theorem source_ne (within : t.Within n) (hr : n ≤ r) {x : Ref} (hx : x ≠ r) :
    t.source x ≠ r := by
  rw [source]
  cases hget : t.sources.get? x x with
  | none =>
      exact hx
  | some s =>
      obtain ⟨e, member, -, -, rfl⟩ := WeakTable.exists_entry_of_get? hget
      exact Nat.ne_of_lt (Nat.lt_of_lt_of_le (within.sources e member).2.2 hr)

theorem placed_sources (within : t.Within n) : t.sources.Placed :=
  fun e member => (within.sources e member).1

theorem placed_states (within : t.Within n) : t.states.Placed :=
  fun e member => (within.states e member).1

theorem source_prune (within : t.Within n) (alive : Ref → Bool) (x : Ref) :
    (t.prune alive).source x = if alive x then t.source x else x := by
  unfold source
  split
  next live => rw [Tracker.prune, within.placed_sources.get?_prune live]
  next dead =>
      rw [Tracker.prune, WeakTable.get?_prune_of_dead (by simpa using dead), Option.getD_none]

theorem state_prune (within : t.Within n) {alive : Ref → Bool} {x : Ref} (live : alive x = true) :
    (t.prune alive).state x = t.state x := by
  simp only [Tracker.state, Tracker.prune, within.placed_states.get?_prune live]

theorem knows_of_knows_prune (within : t.Within n) {alive : Ref → Bool} {x : Ref}
    (knows : (t.prune alive).Knows x) : t.Knows x := by
  cases live : alive x with
  | true =>
      simpa only [Knows, Tracker.prune, within.placed_sources.get?_prune live,
        within.placed_states.get?_prune live] using knows
  | false =>
      simp [Knows, Tracker.prune, WeakTable.get?_prune_of_dead live] at knows

end Within

/-! ### Ultimate sources -/

/-- The source of a callable goes back to nothing else. -/
def Ultimate (t : Tracker) : Prop := ∀ r, t.source (t.source r) = t.source r

theorem ultimate_scripted (script : List Interception) : (scripted script).Ultimate :=
  fun _ => rfl

/-- A record keeps sources ultimate exactly if what it makes a result is not the source of another
callable, except of the target itself. -/
theorem ultimate_put_iff (ultimate : t.Ultimate) (target result : Ref) (state : WrapState) :
    (t.put result (t.source target) state).Ultimate ↔
      t.source target = result ∨ ∀ x, x ≠ result → t.source x ≠ result := by
  have hother : ∀ x, x ≠ result → (t.put result (t.source target) state).source x = t.source x :=
    fun x hx => source_put_of_ne hx _ _
  constructor
  · intro later
    by_contra hneither
    obtain ⟨hne, hx⟩ := not_or.mp hneither
    obtain ⟨x, hx⟩ := not_forall.mp hx
    obtain ⟨hx, hsource⟩ := Classical.not_imp.mp hx
    rw [ne_eq, not_not] at hsource
    -- The source of `x` is now a wrapper of what the target goes back to.
    have hlater := later x
    rw [hother x hx, hsource, source_put_self] at hlater
    exact hne hlater
  · rintro (hsame | hfree) x
    · have hunchanged : ∀ x, (t.put result (t.source target) state).source x = t.source x := by
        intro x
        by_cases hx : x = result
        · subst hx
          rw [source_put_self, ← ultimate target, hsame]
        · exact hother x hx
      rw [hunchanged, hunchanged, ultimate x]
    · by_cases hx : x = result
      · subst hx
        rw [source_put_self]
        by_cases htarget : t.source target = x
        · rw [htarget, source_put_self]
        · rw [hother _ htarget, ultimate target]
      · rw [hother x hx, hother _ (hfree x hx), ultimate x]

theorem Ultimate.prune (ultimate : t.Ultimate) (within : t.Within n) (alive : Ref → Bool) :
    (t.prune alive).Ultimate := by
  intro x
  by_cases hx : alive x = true
  · rw [within.source_prune alive x, if_pos hx, within.source_prune]
    split
    · exact ultimate x
    · rfl
  · rw [within.source_prune alive x, if_neg hx, within.source_prune, if_neg hx]

/-- The tables decide whether sources are ultimate. -/
theorem ultimate_congr {t' : Tracker} (same : t'.sources = t.sources) :
    t'.Ultimate ↔ t.Ultimate := by
  simp only [Ultimate, source, same]

end Tracker

end CallableKinds
