import CallableKinds.Proofs.History

/-!
# Transparency of the instrumented constructor

The class whose objects report is put in the place of the plain one for everybody, so making its
objects has to come to the same. It does, with one record more, as long as no keyword is named like
the parameter that stands for the class.
-/

namespace CallableKinds

namespace Heap

variable {h : Heap} {cls func : Ref} {args : List Value} {keywords : Keyed String Value}

/-- The class decides nothing about what is fixed. -/
theorem fixing_eq (h : Heap) (cls other func : Ref) (args : List Value)
    (keywords : Keyed String Value) :
    h.fixing cls func args keywords = { h.fixing other func args keywords with cls } := by
  unfold fixing
  split
  · split <;> rfl
  · rfl

/-- What can be fixed can be called. -/
theorem callable_of_fixing (callable : h.callable (h.fixing cls func args keywords).func = true) :
    h.callable func = true := by
  rw [fixing] at callable
  split at callable
  next p hp _ => rw [Heap.callable, hp]
  next => exact callable

@[simp] theorem shape_add_size (h : Heap) (shape : Shape) :
    (h.add shape).shape h.size = shape := by
  simp [Heap.shape, object, add, size]

end Heap

namespace World

variable {w : World}

theorem Sound.cls (sound : w.Sound) {r : Ref} {c : ClassInfo}
    (found : initial.heap.shape r = .cls c) :
    ∃ c', w.heap.shape r = .cls c' ∧ c'.bases = c.bases := by
  obtain ⟨c', hc', hunnamed⟩ := sound.builtin.cls found
  exact ⟨c', hc', by simpa using congrArg ClassInfo.bases hunnamed⟩

theorem Sound.reports_tracked (sound : w.Sound) :
    w.heap.reports Catalog.trackedPartialClass = true := by
  obtain ⟨c, hc, -⟩ := sound.cls (r := Catalog.trackedPartialClass) rfl
  exact List.contains_iff_mem.mpr (Heap.mem_lineage_self hc)

/-- Above the plain class there is only the class of all objects. -/
theorem Sound.mem_lineage_plain (sound : w.Sound) {n : Nat} {s : Ref}
    (member : s ∈ w.heap.lineageFrom n Catalog.partialClass) :
    s = Catalog.partialClass ∨ s = Catalog.objectClass := by
  obtain ⟨c, hc, hbases⟩ := sound.cls (r := Catalog.partialClass) rfl
  obtain ⟨o, ho, hroot⟩ := sound.cls (r := Catalog.objectClass) rfl
  cases n with
  | zero =>
      cases member
  | succ n =>
      obtain ⟨c', hc', hs⟩ := Heap.mem_lineageFrom_succ.mp member
      obtain rfl : c' = c := Shape.cls.inj (hc'.symm.trans hc)
      rw [hbases] at hs
      rcases hs with hself | hbase | ⟨b, hb, hs⟩
      · exact Or.inl hself
      · exact Or.inr (List.mem_singleton.mp hbase)
      · rw [List.mem_singleton.mp hb] at hs
        cases n with
        | zero =>
            cases hs
        | succ n =>
            obtain ⟨o', ho', hs⟩ := Heap.mem_lineageFrom_succ.mp hs
            obtain rfl : o' = o := Shape.cls.inj (ho'.symm.trans ho)
            rw [hroot] at hs
            rcases hs with hself | hbase | ⟨b, hb, -⟩
            · exact Or.inr hself
            · cases hbase
            · cases hb

theorem Sound.reports_plain (sound : w.Sound) :
    w.heap.reports Catalog.partialClass = false := by
  rw [Heap.reports, ← Bool.not_eq_true, List.contains_iff_mem]
  intro member
  rcases sound.mem_lineage_plain member with h | h <;> cases h

/-- The making of an object of the plain class. -/
theorem Sound.bind_plain_iff (sound : w.Sound) {f made : Ref} {args : List Value}
    {keywords : Keyed String Value} {w' : World} :
    w.bind Catalog.partialClass (some f) args keywords = .ok (w', made) ↔
      made = w.heap.size ∧
      w.heap.callable (w.heap.fixing Catalog.partialClass f args keywords).func = true ∧
      w' = w.add (.partialOf (w.heap.fixing Catalog.partialClass f args keywords)) := by
  rw [bind_eq_ok_iff, sound.reports_plain]
  simp

/-- A new object with fixed arguments is recorded once by the active tracker, which knows nothing of
it yet. -/
theorem Sound.tracker_report_made (sound : w.Sound) {f : Ref} {p : PartialInfo}
    (callable : w.heap.callable f = true) (id : Nat) :
    ((w.add (.partialOf p)).report f w.heap.size .bound).tracker id =
      if w.active = some id then
        (w.tracker id).put w.heap.size ((w.tracker id).source f)
          (WrapState.bound.union ((w.tracker id).state f).demote)
      else w.tracker id := by
  have hgrows := ((Heap.Continues.refl w.heap).add (.partialOf p)).grows
  have hdistinct : w.heap.size ≠ f := (Nat.ne_of_lt (Heap.lt_size_of_callable callable)).symm
  have hreferable : (w.heap.add (.partialOf p)).weaklyReferable w.heap.size = true := by
    rw [Heap.weaklyReferable, Heap.shape_add_size]
  have hstate : (w.tracker id).state w.heap.size = .unwrapped :=
    Tracker.state_of_not_knows ((sound.within id).not_knows (Nat.le_refl _))
  have hrecord : (w.tracker id).record (w.heap.add (.partialOf p)) f w.heap.size .bound =
      (w.tracker id).put w.heap.size ((w.tracker id).source f)
        (WrapState.bound.union ((w.tracker id).state f).demote) := by
    rw [Tracker.record_eq_wrap hdistinct (hgrows.callable callable) hreferable, Tracker.wrap,
      WrapState.afterWrap, hstate, WrapState.demote_unwrapped, WrapState.union_unwrapped]
  rw [tracker_report]
  by_cases hactive : w.active = some id
  · rw [if_pos ⟨hactive, sound.active id hactive⟩, if_pos hactive]
    exact hrecord
  · rw [if_neg fun h => hactive h.1, if_neg hactive]
    rfl

/-- The instrumented class makes an object where the plain one does, unless a keyword is named like
the parameter for the class. The object differs from that of the plain class by its class only, the
active tracker takes one record of it, and nothing else changes. -/
theorem bind_tracked_iff (events : List Event) (f : Ref) (args : List Value)
    (keywords : Keyed String Value) :
    ((∃ done, (initial.run events).bind Catalog.trackedPartialClass (some f) args keywords =
        .ok done) ↔
      Keyed.has constructedClass keywords = false ∧
      ∃ done, (initial.run events).bind Catalog.partialClass (some f) args keywords = .ok done) ∧
    ∀ w₁ made,
      (initial.run events).bind Catalog.trackedPartialClass (some f) args keywords =
        .ok (w₁, made) →
      ∃ w₀ p,
        (initial.run events).bind Catalog.partialClass (some f) args keywords = .ok (w₀, made) ∧
        w₀.heap.shape made = .partialOf p ∧
        w₁.heap.shape made = .partialOf { p with cls := Catalog.trackedPartialClass } ∧
        w₁.heap = (initial.run events).heap.add
          (.partialOf { p with cls := Catalog.trackedPartialClass }) ∧
        w₁.active = (initial.run events).active ∧
        w₁.trackers.length = (initial.run events).trackers.length ∧
        ∀ id, w₁.tracker id =
          if (initial.run events).active = some id then
            ((initial.run events).tracker id).put made (((initial.run events).tracker id).source f)
              (WrapState.bound.union (((initial.run events).tracker id).state f).demote)
          else (initial.run events).tracker id := by
  have hsound := sound_run events
  generalize initial.run events = w at hsound ⊢
  have hsame := w.heap.fixing_eq Catalog.trackedPartialClass Catalog.partialClass f args keywords
  have htracked : ∀ w₁ made, w.bind Catalog.trackedPartialClass (some f) args keywords =
      .ok (w₁, made) ↔ made = w.heap.size ∧
        w.heap.callable (w.heap.fixing Catalog.partialClass f args keywords).func = true ∧
        Keyed.has constructedClass keywords = false ∧
        w₁ = (w.add (.partialOf { w.heap.fixing Catalog.partialClass f args keywords with
          cls := Catalog.trackedPartialClass })).report f made .bound := by
    intro w₁ made
    rw [bind_eq_ok_iff, hsound.reports_tracked]
    simp [hsame]
  refine ⟨⟨?_, ?_⟩, ?_⟩
  · rintro ⟨⟨w₁, made⟩, done⟩
    obtain ⟨rfl, hcallable, hfree, -⟩ := (htracked w₁ made).mp done
    exact ⟨hfree, _, hsound.bind_plain_iff.mpr ⟨rfl, hcallable, rfl⟩⟩
  · rintro ⟨hfree, ⟨w₀, made⟩, done⟩
    obtain ⟨rfl, hcallable, -⟩ := hsound.bind_plain_iff.mp done
    exact ⟨_, (htracked _ _).mpr ⟨rfl, hcallable, hfree, rfl⟩⟩
  · intro w₁ made done
    obtain ⟨rfl, hcallable, -, rfl⟩ := (htracked w₁ made).mp done
    refine ⟨_, w.heap.fixing Catalog.partialClass f args keywords,
      hsound.bind_plain_iff.mpr ⟨rfl, hcallable, rfl⟩, Heap.shape_add_size .., ?_, ?_, ?_, ?_, ?_⟩
    · rw [heap_report]
      exact Heap.shape_add_size ..
    · rw [heap_report]
      rfl
    · rw [active_report]
      rfl
    · rw [length_trackers_report]
      rfl
    · exact hsound.tracker_report_made (Heap.callable_of_fixing hcallable)

/-- The decorator that makes functions look like a given one. -/
theorem bind_tracked_iff_decorator :
    ∃ w₁ w₀ made p,
      (initial.run []).bind Catalog.trackedPartialClass (some Catalog.updateWrapper) []
        [("wrapped", .object Catalog.updateWrapper)] = .ok (w₁, made) ∧
      (initial.run []).bind Catalog.partialClass (some Catalog.updateWrapper) []
        [("wrapped", .object Catalog.updateWrapper)] = .ok (w₀, made) ∧
      w₀.heap.shape made = .partialOf p ∧
      w₁.heap.shape made = .partialOf { p with cls := Catalog.trackedPartialClass } := by
  obtain ⟨hsucceeds, hmade⟩ := bind_tracked_iff [] Catalog.updateWrapper []
    [("wrapped", .object Catalog.updateWrapper)]
  obtain ⟨⟨w₁, made⟩, htracked⟩ := hsucceeds.mpr ⟨rfl, _, rfl⟩
  obtain ⟨w₀, p, hplain, hshape, hshape', -⟩ := hmade w₁ made htracked
  exact ⟨w₁, w₀, made, p, htracked, hplain, hshape, hshape'⟩

/-- A keyword named like the parameter for the class is refused by the instrumented class only. -/
theorem not_bind_tracked_of_keyword :
    ¬ ∀ events f args keywords,
      (∃ done, (initial.run events).bind Catalog.trackedPartialClass (some f) args keywords =
        .ok done) ↔
      ∃ done, (initial.run events).bind Catalog.partialClass (some f) args keywords = .ok done := by
  intro transparent
  obtain ⟨-, hplain⟩ := transparent [] Catalog.updateWrapper [] [("cls", .datum (.int 1))]
  obtain ⟨done, hdone⟩ := hplain ⟨_, rfl⟩
  cases hdone

end World

end CallableKinds
