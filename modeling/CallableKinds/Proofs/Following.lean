import CallableKinds.Proofs.Growth
import Mathlib.Data.Fintype.Card
import Mathlib.Data.Fintype.EquivFin
import Mathlib.Logic.Relation
import Mathlib.Order.WellFounded

/-!
# Following objects

Some functions go from one object to the next, as many steps as they are given, and take what they find
at the end. Each object has one next object at most. So the steps end unless they come back to an object
that was passed, and if they end, there are no more of them than there are objects.
-/

namespace CallableKinds

variable {next : Ref → Option Ref} {n m size : Nat} {r s e d : Ref}

/-- From an object to the next one. -/
def Goes (next : Ref → Option Ref) (r s : Ref) : Prop := next r = some s

/-- After so many steps there is an object without a next one. -/
inductive EndsAfter (next : Ref → Option Ref) : Nat → Ref → Ref → Prop where
  | here {r : Ref} (last : next r = none) : EndsAfter next 0 r r
  | step {n : Nat} {r s e : Ref} (first : next r = some s) (rest : EndsAfter next n s e) :
      EndsAfter next (n + 1) r e

/-- The steps come back to an object that was passed. -/
def Circles (next : Ref → Option Ref) (r : Ref) : Prop :=
  ∃ s, Relation.ReflTransGen (Goes next) r s ∧ Relation.TransGen (Goes next) s s

namespace EndsAfter

theorem last (ends : EndsAfter next n r e) : next e = none := by
  induction ends with
  | here last => exact last
  | step _ _ ih => exact ih

theorem unique (ends : EndsAfter next n r e) (ends' : EndsAfter next m r d) : n = m ∧ e = d := by
  induction ends generalizing m with
  | here last =>
      cases ends' with
      | here => exact ⟨rfl, rfl⟩
      | step first _ => cases last.symm.trans first
  | step first _ ih =>
      cases ends' with
      | here last => cases last.symm.trans first
      | step first' rest =>
          cases first.symm.trans first'
          obtain ⟨rfl, rfl⟩ := ih rest
          exact ⟨rfl, rfl⟩

/-- With each number of steps left one object is passed. -/
theorem exists_passed (within : ∀ r s, next r = some s → r < size) (ends : EndsAfter next n r e)
    (i : Fin n) : ∃ r : Fin size, EndsAfter next (i + 1) r e := by
  induction ends with
  | here => exact i.elim0
  | @step n r s e first rest ih =>
      obtain hlt | heq := Nat.lt_succ_iff_lt_or_eq.mp i.isLt
      · exact ih ⟨i, hlt⟩
      · refine ⟨⟨r, within r s first⟩, ?_⟩
        rw [heq]
        exact .step first rest

/-- No object is passed twice. -/
theorem le_size (within : ∀ r s, next r = some s → r < size) (ends : EndsAfter next n r e) :
    n ≤ size := by
  choose passed hpassed using ends.exists_passed within
  have hinjective : Function.Injective passed := by
    intro i j same
    have hi := hpassed i
    rw [same] at hi
    exact Fin.ext (Nat.succ_inj.mp (hi.unique (hpassed j)).1)
  simpa using Fintype.card_le_of_injective passed hinjective

end EndsAfter

theorem Circles.exists_next (circles : Circles next r) : ∃ s, next r = some s ∧ Circles next s := by
  obtain ⟨e, reaches, returns⟩ := circles
  obtain rfl | ⟨s, goes, onwards⟩ := Relation.ReflTransGen.cases_head reaches
  · obtain ⟨s, goes, onwards⟩ := Relation.TransGen.head'_iff.mp returns
    exact ⟨s, goes, r, onwards, returns⟩
  · exact ⟨s, goes, e, onwards, returns⟩

/-- Steps that do not come back come to an end. -/
theorem exists_endsAfter (within : ∀ r s, next r = some s → r < size) (straight : ¬ Circles next r) :
    ∃ n e, EndsAfter next n r e := by
  let Passed := { s : Fin size // Relation.ReflTransGen (Goes next) r s.1 }
  let Before (a b : Passed) : Prop := Relation.TransGen (Goes next) b.1.1 a.1.1
  have htrans : IsTrans Passed Before := ⟨fun _ _ _ hab hbc => hbc.trans hab⟩
  have hirrefl : Std.Irrefl Before := ⟨fun a returns => straight ⟨a.1.1, a.2, returns⟩⟩
  have hwf : WellFounded Before := Finite.wellFounded_of_trans_of_irrefl Before
  -- The end is one step behind an object, or is found from the next one, which comes before it.
  have hpassed (a : Passed) : ∃ n e, EndsAfter next n a.1.1 e := by
    induction a using hwf.induction with
    | h a ih =>
        cases hnext : next a.1.1 with
        | none => exact ⟨0, _, .here hnext⟩
        | some s =>
            by_cases hs : s < size
            · obtain ⟨n, e, hends⟩ := ih ⟨⟨s, hs⟩, a.2.tail hnext⟩ (.single hnext)
              exact ⟨n + 1, e, .step hnext hends⟩
            · have hlast : next s = none :=
                Option.eq_none_iff_forall_ne_some.mpr fun t ht => hs (within s t ht)
              exact ⟨1, s, .step hnext (.here hlast)⟩
  by_cases hr : r < size
  · exact hpassed ⟨⟨r, hr⟩, .refl⟩
  · have hlast : next r = none :=
      Option.eq_none_iff_forall_ne_some.mpr fun t ht => hr (within r t ht)
    exact ⟨0, r, .here hlast⟩

/-- Each step of a function is one from an object to the next. -/
def Traces {α : Type} (next : Ref → Option Ref) (run : Nat → Ref → α) : Prop :=
  ∀ r s, next r = some s → ∀ fuel, run (fuel + 1) r = run fuel s

namespace Traces

variable {α : Type} {run : Nat → Ref → α}

/-- What is found is found at the end. -/
theorem run_add (traces : Traces next run) (ends : EndsAfter next n r e) (fuel : Nat) :
    run (fuel + n) r = run fuel e := by
  induction ends with
  | here => rfl
  | step first _ ih => rw [← Nat.add_assoc, traces _ _ first, ih]

/-- Steps that come back are taken until none are left. -/
theorem exists_run_zero (traces : Traces next run) (circles : Circles next r) (fuel : Nat) :
    ∃ s, run fuel r = run 0 s := by
  induction fuel generalizing r with
  | zero => exact ⟨r, rfl⟩
  | succ fuel ih =>
      obtain ⟨s, goes, hs⟩ := circles.exists_next
      rw [traces r s goes]
      exact ih hs

end Traces

end CallableKinds
