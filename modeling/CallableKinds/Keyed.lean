/-!
# Keyed lists

Dictionaries whose order can be observed: lists of pairs in the order in which the keys were first
put. Putting a key again changes its value and leaves it in its place.
-/

namespace CallableKinds

/-- A dictionary in the order of its keys. -/
abbrev Keyed (κ α : Type) := List (κ × α)

namespace Keyed

variable {κ α : Type} [DecidableEq κ]

/-- The value of a key. -/
def find? (key : κ) : Keyed κ α → Option α
  | [] => none
  | (k, value) :: rest => if k = key then some value else find? key rest

/-- Whether a key has a value. -/
def has (key : κ) (m : Keyed κ α) : Bool := (find? key m).isSome

/-- The dictionary with a new value for a key. -/
def put (key : κ) (value : α) : Keyed κ α → Keyed κ α
  | [] => [(key, value)]
  | (k, old) :: rest => if k = key then (k, value) :: rest else (k, old) :: put key value rest

/-- The dictionary with new values for some keys, one after another. -/
def putAll (m : Keyed κ α) (pairs : List (κ × α)) : Keyed κ α :=
  pairs.foldl (fun m p => put p.1 p.2 m) m

/-- The dictionary that a list of pairs stands for: a repeated key keeps its first place and takes
its last value. -/
def ofPairs (pairs : List (κ × α)) : Keyed κ α := putAll [] pairs

/-- The dictionary without a key. -/
def erase (key : κ) : Keyed κ α → Keyed κ α
  | [] => []
  | (k, value) :: rest => if k = key then rest else (k, value) :: erase key rest

theorem find?_put_self (key : κ) (value : α) (m : Keyed κ α) :
    find? key (put key value m) = some value := by
  induction m with
  | nil => simp [put, find?]
  | cons p rest ih =>
    obtain ⟨k, old⟩ := p
    by_cases h : k = key <;> simp [put, find?, h, ih]

theorem find?_put_of_ne {key other : κ} (h : other ≠ key) (value : α) (m : Keyed κ α) :
    find? other (put key value m) = find? other m := by
  induction m with
  | nil => simp [put, find?, Ne.symm h]
  | cons p rest ih =>
    obtain ⟨k, old⟩ := p
    by_cases hk : k = key
    · subst hk
      simp [put, find?, Ne.symm h]
    · simp [put, find?, hk, ih]

end Keyed

end CallableKinds
