import CallableKinds.WeakTable
import Mathlib.Data.List.Nodup

/-!
# Laws of weak tables

A table answers with the value that was set last for an address and its key. Where every entry
stands at the address of its key, the deaths of some keys take away their answers and no others.
The keys of a dictionary are distinct if it was made by putting and erasing keys.
-/

namespace CallableKinds

namespace Keyed

variable {κ α : Type} [DecidableEq κ]

theorem mem_of_find? {key : κ} {value : α} {m : Keyed κ α} (h : find? key m = some value) :
    (key, value) ∈ m := by
  induction m with
  | nil => cases h
  | cons p rest ih =>
      obtain ⟨k, old⟩ := p
      by_cases hk : k = key
      · subst hk
        simp only [find?, if_true, Option.some.injEq] at h
        exact h ▸ List.mem_cons_self
      · simp only [find?, hk, if_false] at h
        exact List.mem_cons_of_mem _ (ih h)

/-- Putting a key leaves the pairs that were there and adds its own. -/
theorem mem_of_mem_put {key : κ} {value : α} {m : Keyed κ α} {p : κ × α}
    (member : p ∈ put key value m) : p = (key, value) ∨ p ∈ m := by
  induction m with
  | nil => exact Or.inl (List.mem_singleton.mp member)
  | cons q rest ih =>
      obtain ⟨k, old⟩ := q
      by_cases hk : k = key
      · subst hk
        rw [put, if_pos rfl, List.mem_cons] at member
        exact member.imp_right (List.mem_cons_of_mem _)
      · rw [put, if_neg hk, List.mem_cons] at member
        rcases member with rfl | member
        · exact Or.inr List.mem_cons_self
        · exact (ih member).imp_right (List.mem_cons_of_mem _)

/-- Dropping pairs by their keys does not change the answers for the keys that are kept. -/
theorem find?_filter {m : Keyed κ α} {keep : κ × α → Bool} {key : κ}
    (same : ∀ value, (key, value) ∈ m → keep (key, value) = true) :
    find? key (m.filter keep) = find? key m := by
  induction m with
  | nil => rfl
  | cons p rest ih =>
      obtain ⟨k, value⟩ := p
      have ih := ih fun v member => same v (List.mem_cons_of_mem _ member)
      by_cases hk : k = key
      · subst hk
        rw [List.filter_cons_of_pos (same value List.mem_cons_self)]
        simp [find?]
      · by_cases hkeep : keep (k, value) = true
        · rw [List.filter_cons_of_pos hkeep]
          simp only [find?, hk, if_false, ih]
        · rw [List.filter_cons_of_neg hkeep]
          simp only [find?, hk, if_false, ih]

/-- Whether the keys of a dictionary are distinct. -/
def Distinct (m : Keyed κ α) : Prop := (m.map Prod.fst).Nodup

omit [DecidableEq κ] in
theorem Distinct.sublist {m m' : Keyed κ α} (distinct : m.Distinct) (sub : m'.Sublist m) :
    m'.Distinct :=
  List.Nodup.sublist (sub.map Prod.fst) distinct

/-- Among distinct keys, a key has the value that it is paired with. -/
theorem Distinct.find?_of_mem {m : Keyed κ α} (distinct : m.Distinct) {key : κ} {value : α}
    (member : (key, value) ∈ m) : find? key m = some value := by
  induction m with
  | nil => cases member
  | cons p rest ih =>
      obtain ⟨k, old⟩ := p
      obtain ⟨fresh, distinct⟩ := List.nodup_cons.mp distinct
      rcases List.mem_cons.mp member with same | member
      · cases same
        simp [find?]
      · have hk : k ≠ key := by
          rintro rfl
          exact fresh (List.mem_map.mpr ⟨_, member, rfl⟩)
        simpa [find?, hk] using ih distinct member

/-- Among distinct keys, erasing one drops the pairs that have it. -/
theorem Distinct.erase_eq_filter {m : Keyed κ α} (distinct : m.Distinct) (key : κ) :
    erase key m = m.filter (·.1 ≠ key) := by
  induction m with
  | nil => rfl
  | cons p rest ih =>
      obtain ⟨k, old⟩ := p
      obtain ⟨fresh, distinct⟩ := List.nodup_cons.mp distinct
      by_cases hk : k = key
      · subst hk
        rw [erase, if_pos rfl, List.filter_cons_of_neg (by simp)]
        refine (List.filter_eq_self.mpr fun p member => ?_).symm
        exact decide_eq_true fun same => fresh (List.mem_map.mpr ⟨p, member, same⟩)
      · rw [erase, if_neg hk, List.filter_cons_of_pos (by simpa using hk), ih distinct]

theorem Distinct.put {m : Keyed κ α} (distinct : m.Distinct) (key : κ) (value : α) :
    (Keyed.put key value m).Distinct := by
  induction m with
  | nil => exact List.nodup_singleton key
  | cons p rest ih =>
      obtain ⟨k, old⟩ := p
      obtain ⟨fresh, kept⟩ := List.nodup_cons.mp distinct
      rw [Keyed.put]
      split
      · exact distinct
      · rename_i hk
        refine List.nodup_cons.mpr ⟨fun member => ?_, ih kept⟩
        obtain ⟨p, member, same⟩ := List.mem_map.mp member
        rcases mem_of_mem_put member with rfl | member
        · exact hk same.symm
        · exact fresh (List.mem_map.mpr ⟨p, member, same⟩)

end Keyed

namespace WeakTable

variable {κ α : Type} [DecidableEq κ] {t : WeakTable κ α}

@[simp] theorem get?_set_self (t : WeakTable κ α) (address : Nat) (key : κ) (value : α) :
    (t.set address key value).get? address key = some value := by
  simp only [get?, entryOf, set, Keyed.find?_put_self, Option.filter_some, decide_true, if_true,
    Option.map_some]

theorem get?_set_of_ne (t : WeakTable κ α) {address other : Nat} (h : other ≠ address)
    (key key' : κ) (value : α) : (t.set address key value).get? other key' = t.get? other key' := by
  simp only [get?, entryOf, set, Keyed.find?_put_of_ne h]

/-- What a table answers after an entry was set is the new value, or was answered before. -/
theorem eq_or_get?_of_get?_set {t : WeakTable Nat α} {key other : Nat} {value found : α}
    (h : (t.set key key value).get? other other = some found) :
    (other = key ∧ found = value) ∨ t.get? other other = some found := by
  by_cases same : other = key
  · subst same
    rw [get?_set_self, Option.some.injEq] at h
    exact Or.inl ⟨rfl, h.symm⟩
  · rw [get?_set_of_ne _ same] at h
    exact Or.inr h

/-- An answer is the value of an entry for the key at the address. -/
theorem exists_entry_of_get? {address : Nat} {key : κ} {value : α}
    (h : t.get? address key = some value) :
    ∃ e ∈ t.entries, e.1 = address ∧ e.2.key = key ∧ e.2.value = value := by
  obtain ⟨e, he, hvalue⟩ := Option.map_eq_some_iff.mp h
  obtain ⟨hfind, hkey⟩ := Option.filter_eq_some_iff.mp he
  exact ⟨(address, e), Keyed.mem_of_find? hfind, rfl, by simpa using hkey, hvalue⟩

omit [DecidableEq κ] in
theorem mem_entries_of_mem_set {address : Nat} {key : κ} {value : α} {e : Nat × WeakEntry κ α}
    (member : e ∈ (t.set address key value).entries) :
    e = (address, ⟨t.issued, key, value⟩) ∨ e ∈ t.entries :=
  Keyed.mem_of_mem_put member

omit [DecidableEq κ] in
theorem mem_entries_of_mem_prune {alive : κ → Bool} {e : Nat × WeakEntry κ α}
    (member : e ∈ (t.prune alive).entries) : e ∈ t.entries ∧ alive e.2.key = true := by
  simpa [prune] using member

theorem has_eq_isSome_get? (t : WeakTable κ α) (address : Nat) (key : κ) :
    t.has address key = (t.get? address key).isSome := by
  simp only [has, get?, Option.isSome_map]

/-- Among distinct addresses, a key has the value of its entry. -/
theorem get?_of_mem (distinct : t.entries.Distinct) {e : Nat × WeakEntry κ α}
    (member : e ∈ t.entries) : t.get? e.1 e.2.key = some e.2.value := by
  simp only [get?, entryOf, distinct.find?_of_mem member, Option.filter_some, decide_true, if_true,
    Option.map_some]

/-- A dead key has no answer. -/
theorem get?_prune_of_dead {alive : κ → Bool} {address : Nat} {key : κ}
    (dead : alive key = false) : (t.prune alive).get? address key = none := by
  cases h : (t.prune alive).get? address key with
  | none => rfl
  | some value =>
      obtain ⟨e, member, -, rfl, -⟩ := exists_entry_of_get? h
      have live := (mem_entries_of_mem_prune member).2
      simp [dead] at live

/-! ### Entries at the addresses of their keys -/

section Placed

variable {t : WeakTable Nat α} {alive : Nat → Bool} {key : Nat}

/-- Whether every entry stands at the address of its key. -/
def Placed (t : WeakTable Nat α) : Prop := ∀ e ∈ t.entries, e.1 = e.2.key

theorem Placed.set (placed : t.Placed) (key : Nat) (value : α) : (t.set key key value).Placed := by
  intro e member
  rcases mem_entries_of_mem_set member with rfl | member
  · rfl
  · exact placed e member

theorem Placed.prune (placed : t.Placed) (alive : Nat → Bool) : (t.prune alive).Placed :=
  fun e member => placed e (mem_entries_of_mem_prune member).1

/-- The deaths of other keys leave the entry of a live one. -/
theorem Placed.entryOf_prune (placed : t.Placed) (live : alive key = true) :
    (t.prune alive).entryOf key key = t.entryOf key key := by
  have hfind : Keyed.find? key (t.prune alive).entries = Keyed.find? key t.entries := by
    refine Keyed.find?_filter fun e member => ?_
    have hkey : key = e.key := placed (key, e) member
    exact hkey ▸ live
  rw [entryOf, entryOf, hfind]

/-- The deaths of some keys do not change the answers for live ones. -/
theorem Placed.get?_prune (placed : t.Placed) (live : alive key = true) :
    (t.prune alive).get? key key = t.get? key key := by
  rw [get?, get?, placed.entryOf_prune live]

/-- What is left after some deaths was there before. -/
theorem Placed.get?_of_prune (placed : t.Placed) {value : α}
    (found : (t.prune alive).get? key key = some value) : t.get? key key = some value := by
  cases live : alive key with
  | true => rwa [placed.get?_prune live] at found
  | false =>
      rw [get?_prune_of_dead live] at found
      cases found

end Placed

end WeakTable

end CallableKinds
