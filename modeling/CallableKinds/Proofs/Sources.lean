import CallableKinds.Proofs.History

/-!
# Ultimate sources

What a callable goes back to is settled when it is wrapped. It stays the end of the matter until
that object is made to look like another one itself: from then on a tracker tells a source that has
a source of its own.
-/

namespace CallableKinds

namespace World

variable {w : World} {id : Nat}

/-- An event displaces a source: what other callables go back to becomes the result of a wrap, and
the target of the wrap does not go back to it. -/
def Displaces (w : World) (id : Nat) (e : Event) : Prop :=
  ∃ target result kind, w.Rewraps id target result kind e ∧
    (w.tracker id).source target ≠ result ∧
    ∃ x, x ≠ result ∧ (w.tracker id).source x = result

/-- An event keeps sources ultimate unless it displaces one. -/
theorem ultimate_perform_iff (sound : w.Sound) (ultimate : (w.tracker id).Ultimate) (e : Event) :
    ((w.perform e).tracker id).Ultimate ↔ ¬ w.Displaces id e := by
  constructor
  · rintro later ⟨target, result, kind, rewraps, hne, x, hx, hsource⟩
    rw [rewraps.recorded, Tracker.wrap, Tracker.ultimate_put_iff ultimate] at later
    rcases later with hsame | hfree
    · exact hne hsame
    · exact hfree x hx hsource
  · intro keeps
    have hwithin := sound.within id
    cases noted_perform w id e with
    | unchanged sources states =>
        exact (Tracker.ultimate_congr sources).mpr ultimate
    | perished alive perish pruned =>
        rw [pruned]
        exact ultimate.prune hwithin alive
    | fresh target kind fixes known made recorded =>
        rw [recorded, Tracker.wrap, Tracker.ultimate_put_iff ultimate]
        exact Or.inr fun x hx => hwithin.source_ne (Nat.le_refl _) hx
    | rewrapped target result kind rewraps recorded =>
        rw [recorded, Tracker.wrap, Tracker.ultimate_put_iff ultimate]
        by_cases hsame : (w.tracker id).source target = result
        · exact Or.inl hsame
        · refine Or.inr fun x hx hsource => ?_
          exact keeps ⟨target, result, kind, rewraps, hsame, x, hx, hsource⟩

theorem ultimate_initial (id : Nat) : (initial.tracker id).Ultimate := by
  cases id with
  | zero =>
      exact Tracker.ultimate_scripted []
  | succ n =>
      exact Tracker.ultimate_scripted []

/-- Sources are ultimate all along a history exactly if no event of it displaces one. Neither the
making of callables with fixed arguments nor the choice of the active tracker ever does. -/
theorem ultimate_along_iff (events : List Event) (id : Nat) :
    (∀ n, ((initial.run (events.take n)).tracker id).Ultimate) ↔
      ∀ n e, events[n]? = some e → ¬ (initial.run (events.take n)).Displaces id e := by
  constructor
  · intro ultimate n e found
    have hlater := ultimate (n + 1)
    rw [run_take_succ initial found] at hlater
    exact (ultimate_perform_iff (sound_run _) (ultimate n) e).mp hlater
  · intro keeps n
    induction n with
    | zero =>
        exact ultimate_initial id
    | succ n ih =>
        cases found : events[n]? with
        | none =>
            have hlength := List.getElem?_eq_none_iff.mp found
            rw [List.take_of_length_le (by omega)]
            rw [List.take_of_length_le hlength] at ih
            exact ih
        | some e =>
            rw [run_take_succ initial found]
            exact (ultimate_perform_iff (sound_run _) ih e).mpr (keeps n e found)

/-- A history of two functions `f` and `g`, in which an object with fixed arguments is made of `f`,
and `f` is then made to look like `g`. -/
def displacement : List Event :=
  let f : Shape := .function (.ofSignature "f" "f" .plain Signature.anything (.echo "f"))
  let g : Shape := .function (.ofSignature "g" "g" .plain Signature.anything (.echo "g"))
  let size := initial.heap.size
  [.create f none, .create g none, .bind Catalog.trackedPartialClass (some size) [] [],
    .imitate true size (size + 1) Heap.usualNames [Heap.dictName]]

/-- The object with fixed arguments goes back to `f`, and `f` goes back to `g`. -/
theorem not_ultimate_displacement :
    ¬ ∀ events id, ((initial.run events).tracker id).Ultimate := by
  intro ultimate
  have hsource := ultimate displacement mainTracker (initial.heap.size + 2)
  have hfirst : ((initial.run displacement).tracker mainTracker).source (initial.heap.size + 2) =
      initial.heap.size := by decide +kernel
  have hsecond : ((initial.run displacement).tracker mainTracker).source initial.heap.size =
      initial.heap.size + 1 := by decide +kernel
  rw [hfirst, hsecond] at hsource
  exact Nat.succ_ne_self _ hsource

end World

end CallableKinds
