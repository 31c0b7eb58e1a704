import CallableKinds.Fault

/-!
# Outcomes of computations that may fail

A computation that may fail gives a result or a fault, and leaves a state behind in both cases.
-/

namespace CallableKinds

/-- A sequence of two steps succeeds only if both do. -/
theorem ok_of_bind {ε α β : Type} {act : Except ε α} {next : α → Except ε β} {b : β}
    (h : (act >>= next) = .ok b) : ∃ a, act = .ok a ∧ next a = .ok b := by
  cases act with
  | error e => cases h
  | ok a => exact ⟨a, rfl, h⟩

theorem exists_of_map_eq_ok {ε α β : Type} {result : Except ε α} {g : α → β} {b : β}
    (h : result.map g = .ok b) : ∃ a, result = .ok a ∧ g a = b := by
  cases result with
  | error e => cases h
  | ok a =>
      cases h
      exact ⟨a, rfl, rfl⟩

theorem eq_error_of_map_eq_error {ε α β : Type} {result : Except ε α} {g : α → β} {e : ε}
    (h : result.map g = .error e) : result = .error e := by
  cases result with
  | error e' =>
      cases h
      rfl
  | ok a => cases h

theorem map_injective {ε α β : Type} {g : α → β} (injective : Function.Injective g) :
    Function.Injective (Except.map g : Except ε α → Except ε β) := by
  intro x y same
  cases x with
  | error e =>
      cases y with
      | error e' =>
          cases same
          rfl
      | ok b => cases same
  | ok a =>
      cases y with
      | error e => cases same
      | ok b => exact congrArg Except.ok (injective (Except.ok.inj same))

theorem ok_of_mapError {ε ε' α : Type} {result : Except ε α} {g : ε → ε'} {a : α}
    (h : result.mapError g = .ok a) : result = .ok a := by
  cases result with
  | error e => cases h
  | ok a' =>
      cases h
      rfl

theorem eq_ok_of_toOption {ε α : Type} {result : Except ε α} {a : α}
    (h : result.toOption = some a) : result = .ok a := by
  cases result with
  | error e => cases h
  | ok a' =>
      cases h
      rfl

/-- A computation fails in some ways only, if at all. -/
def FailsOnly {α : Type} (P : Fault → Prop) (result : Except Fault α) : Prop :=
  ∀ f, result = .error f → P f

namespace FailsOnly

variable {α β : Type} {P : Fault → Prop}

theorem ok (a : α) : FailsOnly P (.ok a) := nofun

theorem error {f : Fault} (holds : P f) : FailsOnly P (.error f : Except Fault α) := by
  rintro _ ⟨⟩
  exact holds

theorem bind {act : Except Fault α} {next : α → Except Fault β} (first : FailsOnly P act)
    (later : ∀ a, FailsOnly P (next a)) : FailsOnly P (act >>= next) := by
  cases act with
  | error f => exact error (first f rfl)
  | ok a => exact later a

theorem map {act : Except Fault α} (first : FailsOnly P act) (g : α → β) :
    FailsOnly P (act.map g) := by
  intro f failed
  exact first f (eq_error_of_map_eq_error failed)

end FailsOnly

/-- What a part of a computation that may fail gives, and the state that it leaves behind. -/
def outcome {σ α : Type} (act : ExceptT Fault (StateM σ) α) (s : σ) : Except Fault α × σ :=
  act.run.run s

section Outcome

variable {σ α β : Type}

@[simp] theorem outcome_get (s : σ) :
    outcome (get : ExceptT Fault (StateM σ) σ) s = (.ok s, s) := rfl

/-- A result that is known already is given without a change. -/
@[simp] theorem outcome_lift (result : Except Fault α) (s : σ) :
    outcome (liftM result : ExceptT Fault (StateM σ) α) s = (result, s) := by
  cases result <;> rfl

/-- A failure ends a computation; what was done before it remains. -/
theorem outcome_bind (act : ExceptT Fault (StateM σ) α)
    (next : α → ExceptT Fault (StateM σ) β) (s : σ) :
    outcome (act >>= next) s =
      match outcome act s with
      | (.ok a, s') => outcome (next a) s'
      | (.error f, s') => (.error f, s') := by
  have hbind : outcome (act >>= next) s = match outcome act s with
      | (result, s') => ((ExceptT.bindCont next result).run s' : Id _) := rfl
  rw [hbind]
  rcases outcome act s with ⟨f | a, s'⟩ <;> rfl

/-- A sequence of two computations succeeds only if both do. -/
theorem exists_of_outcome_bind {act : ExceptT Fault (StateM σ) α}
    {next : α → ExceptT Fault (StateM σ) β} {s : σ} {b : β}
    (done : (outcome (act >>= next) s).1 = .ok b) :
    ∃ a s', outcome act s = (.ok a, s') ∧ (outcome (next a) s').1 = .ok b := by
  rw [outcome_bind] at done
  rcases first : outcome act s with ⟨f | a, s'⟩
  · rw [first] at done
    cases done
  · rw [first] at done
    exact ⟨a, s', rfl, done⟩

theorem outcome_map (act : ExceptT Fault (StateM σ) α) (g : α → β) (s : σ) :
    outcome (g <$> act) s = ((outcome act s).1.map g, (outcome act s).2) := by
  rw [map_eq_pure_bind, outcome_bind]
  rcases outcome act s with ⟨f | a, s'⟩ <;> rfl

end Outcome

/-- A computation keeps a property of the state, also when it fails. -/
def Keeps {σ α : Type} (P : σ → Prop) (act : ExceptT Fault (StateM σ) α) : Prop :=
  ∀ s, P s → P (outcome act s).2

namespace Keeps

variable {σ α β : Type} {P : σ → Prop}

theorem pure (a : α) : Keeps P (Pure.pure a) := fun _ holds => holds

theorem throw (f : Fault) : Keeps P (MonadExcept.throw f : ExceptT Fault (StateM σ) α) :=
  fun _ holds => holds

theorem lift (result : Except Fault α) : Keeps P (liftM result) := by
  intro s holds
  rw [outcome_lift]
  exact holds

theorem change {change : σ → σ} (keeps : ∀ s, P s → P (change s)) :
    Keeps P (modify change) := keeps

/-- What keeps a property may follow on anything that ends with it. -/
theorem follow {act : ExceptT Fault (StateM σ) α} {next : α → ExceptT Fault (StateM σ) β} {s : σ}
    (first : P (outcome act s).2) (later : ∀ a, Keeps P (next a)) :
    P (outcome (act >>= next) s).2 := by
  rw [outcome_bind]
  generalize outcome act s = ran at first ⊢
  obtain ⟨f | a, s'⟩ := ran
  · exact first
  · exact later a s' first

theorem bind {act : ExceptT Fault (StateM σ) α} {next : α → ExceptT Fault (StateM σ) β}
    (first : Keeps P act) (later : ∀ a, Keeps P (next a)) : Keeps P (act >>= next) :=
  fun s holds => follow (first s holds) later

/-- What comes after a look at the state may rely on that state. -/
theorem get_bind {next : σ → ExceptT Fault (StateM σ) α}
    (later : ∀ s, P s → P (outcome (next s) s).2) : Keeps P (get >>= next) := by
  intro s holds
  rw [outcome_bind, outcome_get]
  exact later s holds

/-- What keeps everything is a question. What comes after it begins in the same state. -/
theorem question_bind {act : ExceptT Fault (StateM σ) α}
    {next : α → ExceptT Fault (StateM σ) β} {s : σ} (question : ∀ Q, Keeps Q act) (holds : P s)
    (later : ∀ a, P (outcome (next a) s).2) : P (outcome (act >>= next) s).2 := by
  have hsame := question (· = s) s rfl
  rw [outcome_bind]
  generalize outcome act s = ran at hsame ⊢
  obtain ⟨result, s'⟩ := ran
  obtain rfl : s' = s := hsame
  cases result with
  | error f => exact holds
  | ok a => exact later a

theorem mapM {act : α → ExceptT Fault (StateM σ) β} (each : ∀ a, Keeps P (act a))
    (as : List α) : Keeps P (as.mapM act) := by
  induction as with
  | nil =>
      exact pure []
  | cons a rest ih =>
      rw [List.mapM_cons]
      exact (each a).bind fun b => ih.bind fun bs => pure (b :: bs)

theorem forM {act : α → ExceptT Fault (StateM σ) PUnit} (each : ∀ a, Keeps P (act a))
    (as : List α) : Keeps P (as.forM act) := by
  induction as with
  | nil =>
      exact pure PUnit.unit
  | cons a rest ih =>
      exact (each a).bind fun _ => ih

theorem mapOption {act : α → ExceptT Fault (StateM σ) β} (each : ∀ a, Keeps P (act a))
    (a : Option α) : Keeps P (a.mapM act) := by
  cases a with
  | none =>
      exact pure none
  | some a =>
      exact (each a).bind fun b => pure (some b)

end Keeps

end CallableKinds
