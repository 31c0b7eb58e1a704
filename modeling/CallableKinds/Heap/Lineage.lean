import CallableKinds.Heap

/-!
# Lineages

A class and the classes above it, in the order in which attributes are looked up. The lineage of a
class begins with the class and merges the lineages of its bases with the list of these bases, so
that every class stands before those it is derived from and bases keep the order they are named in.
Lists that contradict each other have no merge, and no class is made of bases whose lineages do.
-/

namespace CallableKinds

namespace Lineage

/-- The classes at the heads of some lists. -/
def heads (lists : List (List Ref)) : List Ref := lists.filterMap List.head?

/-- Whether a class waits behind another one in none of the lists. -/
def isFree (lists : List (List Ref)) (r : Ref) : Bool := lists.all fun l => !l.tail.contains r

/-- A list without a class that stands at its head. -/
def dropHead (r : Ref) : List Ref → List Ref
  | [] => []
  | s :: rest => if s = r then rest else s :: rest

/-- Merges lists in at most so many steps. Each step takes the first head that is free; lists that
contradict each other leave heads of which none is. -/
def mergeWithin (steps : Nat) (lists : List (List Ref)) : Except (List Ref) (List Ref) :=
  match steps, (heads lists).find? (isFree lists) with
  | steps + 1, some r => (r :: ·) <$> mergeWithin steps (lists.map (dropHead r))
  | _, _ => if heads lists = [] then .ok [] else .error (heads lists)

/-- Merges lists, or gives the heads at which they contradict each other. Every step takes a class
from at least one list. -/
def merge (lists : List (List Ref)) : Except (List Ref) (List Ref) :=
  mergeWithin lists.flatten.length lists

/-- The classes of some lists, merged unless the lists contradict each other. -/
def join (lists : List (List Ref)) : List Ref :=
  match merge lists with
  | .ok merged => merged
  | .error _ => lists.flatten

theorem mem_dropHead {r s : Ref} {l : List Ref} (h : s ∈ l) : s = r ∨ s ∈ dropHead r l := by
  cases l with
  | nil => simp at h
  | cons t rest => by_cases ht : t = r <;> simp_all [dropHead]

theorem mem_of_mem_dropHead {r s : Ref} {l : List Ref} (h : s ∈ dropHead r l) : s ∈ l := by
  cases l with
  | nil => exact h
  | cons t rest => by_cases ht : t = r <;> simp_all [dropHead]

theorem mem_of_mem_heads {r : Ref} {lists : List (List Ref)} (h : r ∈ heads lists) :
    ∃ l ∈ lists, r ∈ l := by
  obtain ⟨l, hl, hr⟩ := List.mem_filterMap.1 h
  exact ⟨l, hl, List.mem_of_head? hr⟩

theorem eq_nil_of_heads_eq_nil {lists : List (List Ref)} (h : heads lists = [])
    {l : List Ref} (hl : l ∈ lists) : l = [] := by
  have := List.filterMap_eq_nil_iff.1 h l hl
  simpa using this

/-- A merge holds the classes of its lists and no others. -/
theorem mem_mergeWithin {steps : Nat} {lists : List (List Ref)} {merged : List Ref}
    (h : mergeWithin steps lists = .ok merged) (s : Ref) : s ∈ merged ↔ ∃ l ∈ lists, s ∈ l := by
  fun_induction mergeWithin steps lists generalizing merged with
  | case1 lists steps r hr ih =>
    cases hm : mergeWithin steps (lists.map (dropHead r)) with
    | error e => simp [hm, Functor.map, Except.map] at h
    | ok rest =>
      simp only [hm, Functor.map, Except.map, Except.ok.injEq] at h
      subst h
      rw [List.mem_cons, ih hm]
      constructor
      · rintro (rfl | ⟨l, hl, hs⟩)
        · exact mem_of_mem_heads (List.mem_of_find?_eq_some hr)
        · obtain ⟨l, hl', rfl⟩ := List.mem_map.1 hl
          exact ⟨l, hl', mem_of_mem_dropHead hs⟩
      · rintro ⟨l, hl, hs⟩
        exact (mem_dropHead hs).imp_right fun hd => ⟨_, List.mem_map_of_mem hl, hd⟩
  | case2 lists steps hn _ =>
    simp only [Except.ok.injEq] at h
    subst h
    constructor
    · simp
    · rintro ⟨l, hl, hs⟩
      rw [eq_nil_of_heads_eq_nil hn hl] at hs
      exact hs
  | case3 => simp at h

theorem mem_join {lists : List (List Ref)} {s : Ref} : s ∈ join lists ↔ ∃ l ∈ lists, s ∈ l := by
  unfold join
  split
  · rename_i merged h
    exact mem_mergeWithin h s
  · simp

end Lineage

namespace Heap

/-- The lineage of a class, through so many classes above each other. -/
def lineageFrom (h : Heap) : Nat → Ref → List Ref
  | 0, _ => []
  | fuel + 1, r =>
    match h.shape r with
    | .cls c => r :: Lineage.join (c.bases.map (lineageFrom h fuel) ++ [c.bases])
    | _ => []

/-- A class and the classes above it, in the order in which attributes are looked up. -/
def lineage (h : Heap) (r : Ref) : List Ref := h.lineageFrom h.size r

end Heap

end CallableKinds
