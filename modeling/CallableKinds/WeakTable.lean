import CallableKinds.Keyed

/-!
# Weak tables

Tables keyed by the identity of objects that do not keep their keys alive. A table finds an entry by
the address of the key; an entry also knows which object it was made for, because the address of a
dead object may be given to a new one. When a key dies, the entry made for it expires; `expire` may
come late, when the entry has been replaced, and then does nothing, as it names the ticket of the
entry it was issued for.
-/

namespace CallableKinds

/-- An entry of a weak table. -/
structure WeakEntry (κ α : Type) where
  /-- Tells this entry from all others that were ever made. -/
  ticket : Nat
  key : κ
  value : α
  deriving Repr, DecidableEq

/-- A table from objects, found by address, to values. -/
structure WeakTable (κ α : Type) where
  /-- The ticket of the next entry. -/
  issued : Nat
  entries : Keyed Nat (WeakEntry κ α)
  deriving Repr, DecidableEq

namespace WeakTable

variable {κ α : Type} [DecidableEq κ]

/-- The table without entries. -/
def empty : WeakTable κ α := ⟨0, []⟩

instance : Inhabited (WeakTable κ α) := ⟨empty⟩

/-- The entry of a live key. -/
def entryOf (t : WeakTable κ α) (address : Nat) (key : κ) : Option (WeakEntry κ α) :=
  (Keyed.find? address t.entries).filter (·.key = key)

/-- The value of a live key. -/
def get? (t : WeakTable κ α) (address : Nat) (key : κ) : Option α :=
  (t.entryOf address key).map (·.value)

/-- Whether a live key has an entry. -/
def has (t : WeakTable κ α) (address : Nat) (key : κ) : Bool := (t.entryOf address key).isSome

/-- The table with a new entry for a live key. What was found at its address is given up. -/
def set (t : WeakTable κ α) (address : Nat) (key : κ) (value : α) : WeakTable κ α where
  issued := t.issued + 1
  entries := Keyed.put address ⟨t.issued, key, value⟩ t.entries

/-- The table without the entry of a live key, or `none` if there is none. -/
def erase? (t : WeakTable κ α) (address : Nat) (key : κ) : Option (WeakTable κ α) :=
  if t.has address key then some { t with entries := Keyed.erase address t.entries } else none

/-- The table after the key of the entry with a ticket died. -/
def expire (t : WeakTable κ α) (address ticket : Nat) : WeakTable κ α :=
  match Keyed.find? address t.entries with
  | some e => if e.ticket = ticket then { t with entries := Keyed.erase address t.entries } else t
  | none => t

/-- The number of entries whose keys are alive. -/
def size (t : WeakTable κ α) (alive : κ → Bool) : Nat :=
  (t.entries.filter fun e => alive e.2.key).length

/-- The values in the table. -/
def values (t : WeakTable κ α) : List α := t.entries.map (·.2.value)

/-- The keys in the table. -/
def keys (t : WeakTable κ α) : List κ := t.entries.map (·.2.key)

/-- The table after the deaths of all keys that are not alive. -/
def prune (t : WeakTable κ α) (alive : κ → Bool) : WeakTable κ α :=
  { t with entries := t.entries.filter fun e => alive e.2.key }

end WeakTable

end CallableKinds
