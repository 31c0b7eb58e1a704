import CallableKinds.Frozen.Store
import Mathlib.Data.List.Basic

/-!
# Updates of frozen dictionaries

An update gives the dictionary that setting its keys one after another gives, with the keys in the
same order, and both give the very dictionary that they are asked of if it has all of these values
already. They part where an update takes a missing key for one whose value is nothing: if all that it
brings reads as it does already, an update leaves the dictionary as it is, although a key is missing.
-/

namespace CallableKinds

namespace Keyed

variable {κ α : Type} [DecidableEq κ]

/-- Putting the value that a key has already changes nothing. -/
theorem put_of_find? {key : κ} {value : α} {m : Keyed κ α} (found : find? key m = some value) :
    put key value m = m := by
  induction m with
  | nil => cases found
  | cons p rest ih =>
      obtain ⟨k, old⟩ := p
      by_cases hk : k = key
      · simp only [find?, hk, if_true, Option.some.injEq] at found
        rw [put, if_pos hk, found]
      · simp only [find?, hk, if_false] at found
        rw [put, if_neg hk, ih found]

theorem putAll_of_find? {m : Keyed κ α} {pairs : List (κ × α)}
    (found : ∀ p ∈ pairs, find? p.1 m = some p.2) : putAll m pairs = m := by
  induction pairs with
  | nil => rfl
  | cons p rest ih =>
      obtain ⟨hp, hrest⟩ := List.forall_mem_cons.mp found
      change putAll (put p.1 p.2 m) rest = m
      rw [put_of_find? hp, ih hrest]

/-- What was put in is there, whatever is put in after it. -/
theorem find?_putAll_ne_none {key : κ} {m : Keyed κ α} {pairs : List (κ × α)}
    (there : find? key m ≠ none ∨ ∃ p ∈ pairs, p.1 = key) :
    find? key (putAll m pairs) ≠ none := by
  induction pairs generalizing m with
  | nil =>
      obtain there | ⟨p, hp, -⟩ := there
      · exact there
      · cases hp
  | cons q rest ih =>
      refine ih ?_
      by_cases hkey : key = q.1
      · left
        rw [hkey, find?_put_self]
        exact Option.some_ne_none _
      · rw [find?_put_of_ne hkey]
        refine there.imp_right ?_
        rintro ⟨p, hp, rfl⟩
        obtain rfl | hp := List.mem_cons.mp hp
        · exact absurd rfl hkey
        · exact ⟨p, hp, rfl⟩

end Keyed

/-! ### Setting keys one after another -/

namespace Frozen

variable {κ α : Type} [DecidableEq κ] [DecidableEq α]

/-- The dictionary that setting a key gives, be it the old one. -/
def set (d : Frozen κ α) (key : κ) (value : Option α) : Frozen κ α := (d.set? key value).getD d

/-- The dictionary that setting some keys one after another gives. -/
def setAll (d : Frozen κ α) (values : List (κ × Option α)) : Frozen κ α :=
  values.foldl (fun d p => d.set p.1 p.2) d

/-- The dictionary that an update gives, be it the old one. -/
def update (d : Frozen κ α) (values : Keyed κ (Option α)) : Frozen κ α :=
  (d.update? values).getD d

/-- An update overlooks a missing key if all that it brings reads as it does already. -/
def Overlooks (d : Frozen κ α) (values : Keyed κ (Option α)) : Prop :=
  (∀ p ∈ values, d.get p.1 = p.2) ∧ ∃ p ∈ values, Keyed.find? p.1 d.items = none

instance (d : Frozen κ α) (values : Keyed κ (Option α)) : Decidable (d.Overlooks values) :=
  inferInstanceAs (Decidable (_ ∧ _))

variable {d : Frozen κ α} {values : Keyed κ (Option α)}

theorem set_eq_put (d : Frozen κ α) (key : κ) (value : Option α) :
    d.set key value = { d with items := Keyed.put key value d.items } := by
  rw [set, set?]
  split
  next found => rw [Option.getD_none, Keyed.put_of_find? found]
  next => rfl

theorem setAll_eq_putAll (d : Frozen κ α) (values : List (κ × Option α)) :
    d.setAll values = { d with items := Keyed.putAll d.items values } := by
  induction values generalizing d with
  | nil => rfl
  | cons p rest ih =>
      change (d.set p.1 p.2).setAll rest = _
      rw [ih, set_eq_put]
      rfl

theorem update?_eq_none_iff : d.update? values = none ↔ ∀ p ∈ values, d.get p.1 = p.2 := by
  rw [update?]
  simp

theorem update_of_reads (reads : ∀ p ∈ values, d.get p.1 = p.2) : d.update values = d := by
  rw [update, update?_eq_none_iff.mpr reads, Option.getD_none]

theorem update_of_not_reads (reads : ¬ ∀ p ∈ values, d.get p.1 = p.2) :
    d.update values = { d with items := Keyed.putAll d.items values } := by
  rw [update, update?, if_neg (by simpa using reads), Option.getD_some]

theorem cls_update (d : Frozen κ α) (values : Keyed κ (Option α)) :
    (d.update values).cls = d.cls := by
  by_cases reads : ∀ p ∈ values, d.get p.1 = p.2
  · rw [update_of_reads reads]
  · rw [update_of_not_reads reads]

omit [DecidableEq α] in
/-- As far as no key is missing, a dictionary has the values that it reads as. -/
theorem find?_of_reads (reads : ∀ p ∈ values, d.get p.1 = p.2) (noticed : ¬ d.Overlooks values) :
    ∀ p ∈ values, Keyed.find? p.1 d.items = some p.2 := by
  intro p hp
  cases found : Keyed.find? p.1 d.items with
  | none => exact absurd ⟨reads, p, hp, found⟩ noticed
  | some value =>
      have hread := reads p hp
      rw [get, found, Option.join_some] at hread
      rw [hread]

/-- An update gives what setting the keys one after another gives, unless it overlooks one. -/
theorem items_update_eq_iff :
    (d.update values).items = (d.setAll values).items ↔ ¬ d.Overlooks values := by
  rw [setAll_eq_putAll]
  dsimp only
  constructor
  · rintro same ⟨reads, p, hp, missing⟩
    rw [update_of_reads reads] at same
    refine Keyed.find?_putAll_ne_none (m := d.items) (Or.inr ⟨p, hp, rfl⟩) ?_
    rw [← same, missing]
  · intro noticed
    by_cases reads : ∀ p ∈ values, d.get p.1 = p.2
    · rw [update_of_reads reads, Keyed.putAll_of_find? (find?_of_reads reads noticed)]
    · rw [update_of_not_reads reads]

/-- It gives the very dictionary if and only if this has all the values, unless it overlooks a
key. -/
theorem update?_eq_none_iff_find?_iff :
    (d.update? values = none ↔ ∀ p ∈ values, Keyed.find? p.1 d.items = some p.2) ↔
      ¬ d.Overlooks values := by
  rw [update?_eq_none_iff]
  constructor
  · rintro same ⟨reads, p, hp, missing⟩
    rw [same.mp reads p hp] at missing
    cases missing
  · refine fun noticed => ⟨fun reads => find?_of_reads reads noticed, fun found p hp => ?_⟩
    rw [get, found p hp, Option.join_some]

end Frozen

/-! ### Updates in a store -/

namespace FrozenStore

variable {s : FrozenStore} {on : String}

/-- A name stands for a dictionary of the store. -/
def Holds (s : FrozenStore) (name : String) : Prop := s.resolve name < s.objects.length

instance (s : FrozenStore) (name : String) : Decidable (s.Holds name) :=
  inferInstanceAs (Decidable (_ < _))

theorem resolve_bind (s : FrozenStore) (name : String) (identity : Nat) :
    (s.bind name identity).resolve name = identity := by
  rw [resolve, bind, Keyed.find?_put_self, Option.getD_some]

theorem resolve_add (s : FrozenStore) (name : String) (d : Frozen String Token) :
    (s.add name d).resolve name = s.objects.length := by
  rw [resolve, add, Keyed.find?_put_self, Option.getD_some]

theorem object_bind_resolve (s : FrozenStore) (name other : String) :
    (s.bind name (s.resolve other)).object name = s.object other := by
  rw [object, resolve_bind]
  rfl

theorem object_add (s : FrozenStore) (name : String) (d : Frozen String Token) :
    (s.add name d).object name = ⟨d, []⟩ := by
  rw [object, resolve_add, add, List.getElem?_concat_length, Option.getD_some]

/-- A change leaves all dictionaries as they are. Its answer is the dictionary that the new name stands
for, and the very dictionary that was asked if there was nothing to change. -/
theorem exists_of_changed (holds : s.Holds on) (as : String) (made : Option (Frozen String Token)) :
    ∃ t same, s.changed on as made = (t, .dict (t.object as).dict (some same)) ∧
      (t.object as).dict = made.getD (s.object on).dict ∧
      (same = true ↔ made = none) ∧ (same = true ↔ t.resolve as = s.resolve on) ∧
      s.objects <+: t.objects := by
  cases made with
  | none =>
      refine ⟨s.bind as (s.resolve on), true, ?_, ?_, by simp, ?_, List.prefix_refl _⟩
      · rw [object_bind_resolve]
        rfl
      · rw [object_bind_resolve]
        rfl
      · simp [resolve_bind]
  | some d =>
      refine ⟨s.add as d, false, ?_, ?_, by simp, ?_, List.prefix_append _ _⟩
      · rw [object_add]
        rfl
      · rw [object_add]
        rfl
      · rw [resolve_add]
        have hne : s.objects.length ≠ s.resolve on := Nat.ne_of_gt holds
        simp [hne]

/-- An update with pairs and keywords, which win, gives the dictionary that setting one key after
another gives, with its items in the same order and of the same class, and the very dictionary that was
asked if and only if this has all the values. Both hold exactly unless all that is brought reads as it
does already while a key is missing. In a store an update leaves every dictionary as it is, and it is
refused if and only if a keyword is named like the receiver. -/
theorem update_as_sets {κ α : Type} [DecidableEq κ] [DecidableEq α] (d : Frozen κ α)
    (pairs keywords : List (κ × Option α)) :
    let values := Keyed.putAll (Keyed.ofPairs pairs) keywords
    (d.update values).cls = d.cls ∧
    ((d.update values).items = (d.setAll values).items ↔ ¬ d.Overlooks values) ∧
    ((d.update? values = none ↔ ∀ p ∈ values, Keyed.find? p.1 d.items = some p.2) ↔
      ¬ d.Overlooks values) ∧
    ∀ (s : FrozenStore) (on as : String) (args : List FrozenArgument)
        (pairs keywords : List (String × FrozenValue)),
      s.Holds on → s.argumentItems args = .ok pairs →
      let d := (s.object on).dict
      let values := Keyed.putAll (Keyed.ofPairs pairs) keywords
      let refused := keywords.any (·.1 == updateReceiver)
      (refused = true → s.step (.update on as args keywords) =
        (s, .failed (.repeatedArgument "immutabledict.update" updateReceiver))) ∧
      (refused = false → ∃ t same,
        s.step (.update on as args keywords) = (t, .dict (t.object as).dict (some same)) ∧
        (t.object as).dict = d.update values ∧ (same = true ↔ d.update? values = none) ∧
        (same = true ↔ t.resolve as = s.resolve on) ∧ s.objects <+: t.objects) := by
  intro values
  refine ⟨d.cls_update values, Frozen.items_update_eq_iff, Frozen.update?_eq_none_iff_find?_iff, ?_⟩
  intro s on as args pairs keywords holds given d values refused
  rw [step, given]
  refine ⟨fun named => if_pos named, fun unnamed => ?_⟩
  rw [if_neg fun named => Bool.false_ne_true (unnamed.symm.trans named)]
  exact exists_of_changed holds as (d.update? values)

/-- A store with a dictionary of two keys, one of which has nothing for a value. -/
def twoKeys : FrozenStore :=
  (empty.step (.make "d" .attributed [("a", some (.named "x")), ("b", none)])).1

/-- An update with a key that is there, a key whose value stays and a new key, by pairs and by a
keyword. -/
theorem update_as_sets_threeKeys :
    let pairs := [("c", some (.named "y")), ("b", none)]
    let keywords := [("a", some (.named "z"))]
    ∃ t, twoKeys.step (.update "d" "e" [.pairs pairs] keywords) =
        (t, .dict (t.object "e").dict (some false)) ∧
      (t.object "e").dict =
        ⟨.attributed, [("a", some (.named "z")), ("b", none), ("c", some (.named "y"))]⟩ ∧
      twoKeys.objects <+: t.objects := by
  intro pairs keywords
  obtain ⟨-, -, -, inStore⟩ := update_as_sets (twoKeys.object "d").dict pairs keywords
  obtain ⟨-, made⟩ := inStore twoKeys "d" "e" [.pairs pairs] pairs keywords (by decide) rfl
  obtain ⟨t, same, hstep, hdict, hsame, -, kept⟩ := made rfl
  have hnew : (twoKeys.object "d").dict.update?
      (Keyed.putAll (Keyed.ofPairs pairs) keywords) ≠ none := by
    decide
  obtain rfl : same = false := Bool.eq_false_iff.mpr (hsame.not.mpr hnew)
  exact ⟨t, hstep, hdict.trans (by decide), kept⟩

/-- A new key whose value is nothing is lost. -/
theorem not_update_as_sets :
    ¬ ∀ (d : Frozen String Token) (pairs keywords : List (String × FrozenValue)),
      let values := Keyed.putAll (Keyed.ofPairs pairs) keywords
      (d.update values).items = (d.setAll values).items := by
  intro same
  exact absurd (same ⟨.plain, []⟩ [("x", none)] []) (by decide)

end FrozenStore

end CallableKinds
