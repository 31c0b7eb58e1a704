import CallableKinds.Fault
import CallableKinds.Proofs.WeakTable
import Mathlib.Data.List.Perm.Basic
import Mathlib.Logic.Function.Basic

/-!
# Addresses

A weak table finds its entries by address. The address of a dead object may be given to a new one
while the entry that was made for the dead one is still in the table, since the expiry of an entry
may run at any time after the death of its key, and finds whatever has come to its address by then.

`Storage` is a table among objects that are made and die in any order, with expiries that run late.
`Register` is a dictionary on the objects that are alive. Whatever happens, the first answers as the
second does.
-/

namespace CallableKinds

/-! ## Objects at addresses -/

/-- An object that can be a key. -/
structure Resident where
  address : Nat
  typeName : String
  /-- The written form. -/
  printed : String
  /-- Whether it can be referred to weakly. -/
  referable : Bool
  alive : Bool
  deriving DecidableEq

/-- All objects that were ever made. An object is told from the others by its place in the list. -/
abbrev Residents := List Resident

namespace Residents

/-- Whether an object is alive. -/
def alive (m : Residents) (key : Nat) : Bool := (m[key]?).any (·.alive)

/-- The address of an object, also of a dead one. -/
def address (m : Residents) (key : Nat) : Nat := (m[key]?).elim 0 (·.address)

/-- Whether an object can be referred to weakly. -/
def referable (m : Residents) (key : Nat) : Bool := (m[key]?).any (·.referable)

/-- The name of the type of an object. -/
def typeName (m : Residents) (key : Nat) : String := (m[key]?).elim "" (·.typeName)

/-- The written form of an object. -/
def printed (m : Residents) (key : Nat) : String := (m[key]?).elim "" (·.printed)

/-- Whether a live object is at an address. -/
def occupied (m : Residents) (address : Nat) : Bool :=
  m.any fun r => r.alive && r.address == address

/-- One more object, which needs an address where no live object is. -/
def make (m : Residents) (r : Resident) : Residents :=
  if m.occupied r.address then m else m ++ [{ r with alive := true }]

/-- The objects after the death of one. -/
def bury (m : Residents) (key : Nat) : Residents := m.modify key fun r => { r with alive := false }

end Residents

/-! ## Requests -/

/-- A question to a table, or a change of it, that is about one key. -/
inductive TableRequest (α : Type) where
  | set (value : α)
  | get (default : α)
  | getItem
  | contains
  | delete

/-- What can happen next. -/
inductive StorageStep (α : Type) where
  | make (r : Resident)
  | die (key : Nat)
  /-- The expiry that was issued with the entry of this ticket runs. -/
  | expire (ticket : Nat)
  | request (key : Nat) (r : TableRequest α)
  | size

/-- What is answered. -/
inductive TableReply (α : Type) where
  | done
  | value (v : α)
  | truth (b : Bool)
  | count (n : Nat)
  | failed (f : Fault)

/-! ## The table -/

/-- What the expiry of an entry is about. -/
structure Expiry where
  address : Nat
  key : Nat
  deriving DecidableEq

/-- A weak table among the objects that are its keys, with the expiries of all entries that were
ever made, by ticket. -/
structure Storage (α : Type) where
  residents : Residents
  table : WeakTable Nat α
  expiries : List Expiry

namespace Storage

variable {α : Type}

/-- The storage without objects. -/
def empty : Storage α := ⟨[], .empty, []⟩

/-- The value of an object in the table. -/
def get? (s : Storage α) (key : Nat) : Option α := s.table.get? (s.residents.address key) key

/-- The storage with a new entry for a live key, and with its expiry. -/
def put (s : Storage α) (key : Nat) (value : α) : Storage α where
  residents := s.residents
  table := s.table.set (s.residents.address key) key value
  expiries := s.expiries ++ [⟨s.residents.address key, key⟩]

/-- Carries out a request about a live key. -/
def request (s : Storage α) (key : Nat) : TableRequest α → Storage α × TableReply α
  | .set value =>
    if s.residents.referable key then (s.put key value, .done)
    else (s, .failed (.noWeakReference (s.residents.typeName key)))
  | .get default => (s, .value ((s.get? key).getD default))
  | .getItem =>
    match s.get? key with
    | some v => (s, .value v)
    | none => (s, .failed (.missingKey (s.residents.printed key)))
  | .contains => (s, .truth (s.table.has (s.residents.address key) key))
  | .delete =>
    match s.table.erase? (s.residents.address key) key with
    | some table => ({ s with table }, .done)
    | none => (s, .failed (.missingKey (s.residents.printed key)))

/-- The storage after an expiry. It does not run while its key is alive. -/
def expire (s : Storage α) (ticket : Nat) : Storage α :=
  match s.expiries[ticket]? with
  | some e =>
    if s.residents.alive e.key then s
    else { s with table := s.table.expire e.address ticket }
  | none => s

/-- What a step changes and answers. Nobody can ask about a dead key. -/
def perform (s : Storage α) : StorageStep α → Storage α × TableReply α
  | .make r => ({ s with residents := s.residents.make r }, .done)
  | .die key => ({ s with residents := s.residents.bury key }, .done)
  | .expire ticket => (s.expire ticket, .done)
  | .request key r => if s.residents.alive key then s.request key r else (s, .done)
  | .size => (s, .count (s.table.size s.residents.alive))

/-- The storage after some steps, and their answers. -/
def run (s : Storage α) : List (StorageStep α) → Storage α × List (TableReply α)
  | [] => (s, [])
  | step :: rest =>
    (((s.perform step).1.run rest).1, (s.perform step).2 :: ((s.perform step).1.run rest).2)

end Storage

/-! ## The dictionary -/

/-- A dictionary on the objects that are alive. -/
structure Register (α : Type) where
  residents : Residents
  values : Nat → Option α

namespace Register

variable {α : Type}

/-- The register without objects. -/
def empty : Register α := ⟨[], fun _ => none⟩

/-- The register with another value, or none, for a key. -/
def write (r : Register α) (key : Nat) (value : Option α) : Register α :=
  { r with values := Function.update r.values key value }

/-- The number of keys that have a value. -/
def size (r : Register α) : Nat :=
  ((List.range r.residents.length).filter fun key => (r.values key).isSome).length

/-- Carries out a request about a live key. -/
def request (r : Register α) (key : Nat) : TableRequest α → Register α × TableReply α
  | .set value =>
    if r.residents.referable key then (r.write key (some value), .done)
    else (r, .failed (.noWeakReference (r.residents.typeName key)))
  | .get default => (r, .value ((r.values key).getD default))
  | .getItem =>
    match r.values key with
    | some v => (r, .value v)
    | none => (r, .failed (.missingKey (r.residents.printed key)))
  | .contains => (r, .truth (r.values key).isSome)
  | .delete =>
    match r.values key with
    | some _ => (r.write key none, .done)
    | none => (r, .failed (.missingKey (r.residents.printed key)))

/-- What a step changes and answers. -/
def perform (r : Register α) : StorageStep α → Register α × TableReply α
  | .make resident => ({ r with residents := r.residents.make resident }, .done)
  | .die key => ({ r.write key none with residents := r.residents.bury key }, .done)
  | .expire _ => (r, .done)
  | .request key q => if r.residents.alive key then r.request key q else (r, .done)
  | .size => (r, .count r.size)

/-- The register after some steps, and their answers. -/
def run (r : Register α) : List (StorageStep α) → Register α × List (TableReply α)
  | [] => (r, [])
  | step :: rest =>
    (((r.perform step).1.run rest).1, (r.perform step).2 :: ((r.perform step).1.run rest).2)

end Register

/-! ## Making and burying objects -/

namespace Residents

variable {m : Residents} {key : Nat}

theorem exists_of_alive (living : m.alive key) : ∃ r, m[key]? = some r ∧ r.alive := by
  unfold alive at living
  cases found : m[key]? with
  | none => simp [found] at living
  | some r => exact ⟨r, rfl, by simpa [found] using living⟩

theorem lt_length_of_alive (living : m.alive key) : key < m.length := by
  obtain ⟨r, found, -⟩ := exists_of_alive living
  exact (List.getElem?_eq_some_iff.mp found).1

theorem occupied_of_alive (living : m.alive key) : m.occupied (m.address key) := by
  obtain ⟨r, found, living⟩ := exists_of_alive living
  rw [occupied, List.any_eq_true]
  exact ⟨r, List.mem_of_getElem? found, by simp [address, found, living]⟩

/-- An object is made where no live object is, and is the last one then. -/
theorem make_cases (m : Residents) (r : Resident) :
    m.make r = m ∨ (m.occupied r.address = false ∧ m.make r = m ++ [{ r with alive := true }]) := by
  rw [make]
  split
  · exact Or.inl rfl
  · rename_i free
    exact Or.inr ⟨by simpa using free, rfl⟩

theorem address_append (m : Residents) (r : Resident) (inside : key < m.length) :
    address (m ++ [r]) key = m.address key := by
  simp only [address, List.getElem?_append_left inside]

theorem alive_append (m : Residents) (r : Resident) (inside : key < m.length) :
    alive (m ++ [r]) key = m.alive key := by
  simp only [alive, List.getElem?_append_left inside]

theorem address_append_last (m : Residents) (r : Resident) :
    address (m ++ [r]) m.length = r.address := by
  simp [address]

theorem alive_or_last_of_append {r : Resident} (living : alive (m ++ [r]) key) :
    m.alive key ∨ key = m.length := by
  have inside : key < m.length + 1 := by simpa using lt_length_of_alive living
  rcases Nat.lt_succ_iff_lt_or_eq.mp inside with inside | last
  · exact Or.inl (by rwa [alive_append m r inside] at living)
  · exact Or.inr last

@[simp] theorem length_bury (m : Residents) (key : Nat) : (m.bury key).length = m.length := by
  simp [bury]

@[simp] theorem address_bury (m : Residents) (key other : Nat) :
    (m.bury key).address other = m.address other := by
  simp only [address, bury, List.getElem?_modify]
  cases m[other]? with
  | none => rfl
  | some r => by_cases same : key = other <;> simp [same]

theorem alive_bury (m : Residents) (key other : Nat) :
    (m.bury key).alive other = (decide (other ≠ key) && m.alive other) := by
  simp only [alive, bury, List.getElem?_modify]
  cases m[other]? with
  | none => simp
  | some r =>
      by_cases same : other = key
      · simp [same]
      · simp [same, Ne.symm same]

/-- Whether live objects are told apart by their addresses. -/
def Apart (m : Residents) : Prop :=
  ∀ key other, m.alive key → m.alive other → m.address key = m.address other → key = other

theorem Apart.bury (apart : m.Apart) (key : Nat) : (m.bury key).Apart := by
  intro one other living living' same
  rw [alive_bury, Bool.and_eq_true] at living living'
  rw [address_bury, address_bury] at same
  exact apart one other living.2 living'.2 same

/-- The address of a new object tells it from all that are alive. -/
theorem Apart.make (apart : m.Apart) (r : Resident) : (m.make r).Apart := by
  obtain same | ⟨free, made⟩ := m.make_cases r
  · rwa [same]
  have elsewhere : ∀ key, m.alive key → m.address key ≠ r.address := by
    intro key living same
    rw [← same, occupied_of_alive living] at free
    cases free
  rw [made]
  intro one other living living' same
  rcases alive_or_last_of_append living with living | rfl <;>
    rcases alive_or_last_of_append living' with living' | rfl
  · rw [address_append _ _ (lt_length_of_alive living),
      address_append _ _ (lt_length_of_alive living')] at same
    exact apart one other living living' same
  · rw [address_append _ _ (lt_length_of_alive living), address_append_last] at same
    exact absurd same (elsewhere one living)
  · rw [address_append _ _ (lt_length_of_alive living'), address_append_last] at same
    exact absurd same.symm (elsewhere other living')
  · rfl

end Residents

/-! ## What always holds of the table -/

namespace Storage

variable {α : Type}

/-- The live objects are at distinct addresses, each entry is at the address of the object that it
was made for, and the expiry of its ticket is about this object. -/
structure Sound (s : Storage α) : Prop where
  apart : s.residents.Apart
  distinct : s.table.entries.Distinct
  made : ∀ e ∈ s.table.entries, e.2.key < s.residents.length
  placed : ∀ e ∈ s.table.entries, e.1 = s.residents.address e.2.key
  issued : s.expiries.length = s.table.issued
  named : ∀ e ∈ s.table.entries, s.expiries[e.2.ticket]? = some ⟨e.1, e.2.key⟩

variable {s : Storage α}

theorem sound_empty : (empty : Storage α).Sound where
  apart := fun _ _ living => by cases living
  distinct := List.nodup_nil
  made := fun _ member => by cases member
  placed := fun _ member => by cases member
  issued := rfl
  named := fun _ member => by cases member

theorem Sound.make (sound : s.Sound) (r : Resident) :
    { s with residents := s.residents.make r }.Sound := by
  have apart := sound.apart.make r
  obtain same | ⟨-, made⟩ := s.residents.make_cases r
  · rwa [same]
  · rw [made] at apart ⊢
    exact
      { apart
        distinct := sound.distinct
        made := fun e member => by
          have inside := sound.made e member
          rw [List.length_append]
          exact Nat.lt_add_right _ inside
        placed := fun e member => by
          rw [Residents.address_append _ _ (sound.made e member)]
          exact sound.placed e member
        issued := sound.issued
        named := sound.named }

theorem Sound.bury (sound : s.Sound) (key : Nat) :
    { s with residents := s.residents.bury key }.Sound where
  apart := sound.apart.bury key
  distinct := sound.distinct
  made := fun e member => by simpa using sound.made e member
  placed := fun e member => by simpa using sound.placed e member
  issued := sound.issued
  named := sound.named

/-- An entry is made with a new ticket, at the address of its key. -/
theorem Sound.put (sound : s.Sound) {key : Nat} (living : s.residents.alive key) (value : α) :
    (s.put key value).Sound where
  apart := sound.apart
  distinct := sound.distinct.put _ _
  made := fun e member => by
    rcases WeakTable.mem_entries_of_mem_set member with rfl | member
    · exact Residents.lt_length_of_alive living
    · exact sound.made e member
  placed := fun e member => by
    rcases WeakTable.mem_entries_of_mem_set member with rfl | member
    · rfl
    · exact sound.placed e member
  issued := by
    rw [Storage.put, List.length_append, sound.issued]
    rfl
  named := fun e member => by
    rcases WeakTable.mem_entries_of_mem_set member with rfl | member
    · rw [Storage.put, ← sound.issued]
      exact List.getElem?_concat_length
    · have known := sound.named e member
      rwa [Storage.put, List.getElem?_append_left (List.getElem?_eq_some_iff.mp known).1]

/-- The storage with some of the entries. -/
def keeping (s : Storage α) (keep : Nat × WeakEntry Nat α → Bool) : Storage α :=
  { s with table := { s.table with entries := s.table.entries.filter keep } }

variable {keep : Nat × WeakEntry Nat α → Bool}

theorem mem_of_mem_keeping {e : Nat × WeakEntry Nat α} (member : e ∈ (s.keeping keep).table.entries) :
    e ∈ s.table.entries :=
  (List.mem_filter.mp member).1

/-- Nothing is wrong with a table that lost entries. -/
theorem Sound.keeping (sound : s.Sound) : (s.keeping keep).Sound where
  apart := sound.apart
  distinct := sound.distinct.sublist List.filter_sublist
  made := fun e member => sound.made e (mem_of_mem_keeping member)
  placed := fun e member => sound.placed e (mem_of_mem_keeping member)
  issued := sound.issued
  named := fun e member => sound.named e (mem_of_mem_keeping member)

theorem Sound.get?_of_mem (sound : s.Sound) {e : Nat × WeakEntry Nat α}
    (member : e ∈ s.table.entries) : s.get? e.2.key = some e.2.value := by
  rw [get?, ← sound.placed e member]
  exact WeakTable.get?_of_mem sound.distinct member

theorem exists_entry_of_get? {key : Nat} {value : α} (found : s.get? key = some value) :
    ∃ e ∈ s.table.entries, e.2.key = key ∧ e.2.value = value := by
  obtain ⟨e, member, -, same, holds⟩ := WeakTable.exists_entry_of_get? found
  exact ⟨e, member, same, holds⟩

/-- The loss of entries of other keys changes nothing for a key. -/
theorem Sound.get?_keeping (sound : s.Sound) {key : Nat}
    (kept : ∀ e ∈ s.table.entries, e.2.key = key → keep e) :
    (s.keeping keep).get? key = s.get? key := by
  cases found : s.get? key with
  | some value =>
      obtain ⟨e, member, rfl, rfl⟩ := exists_entry_of_get? found
      exact sound.keeping.get?_of_mem (List.mem_filter.mpr ⟨member, kept e member rfl⟩)
  | none =>
      by_contra other
      obtain ⟨value, other⟩ := Option.ne_none_iff_exists'.mp other
      obtain ⟨e, member, rfl, rfl⟩ := exists_entry_of_get? other
      rw [sound.get?_of_mem (mem_of_mem_keeping member)] at found
      cases found

/-- A key that lost its entry has no value. -/
theorem get?_keeping_of_lost {key : Nat}
    (lost : ∀ e ∈ s.table.entries, e.2.key = key → keep e = false) :
    (s.keeping keep).get? key = none := by
  by_contra found
  obtain ⟨value, found⟩ := Option.ne_none_iff_exists'.mp found
  obtain ⟨e, member, same, -⟩ := exists_entry_of_get? found
  obtain ⟨member, keeps⟩ := List.mem_filter.mp member
  rw [lost e member same] at keeps
  cases keeps

theorem keeping_congr {keep' : Nat × WeakEntry Nat α → Bool}
    (same : ∀ e ∈ s.table.entries, keep e = keep' e) : s.keeping keep = s.keeping keep' := by
  rw [keeping, keeping, List.filter_congr same]

theorem keeping_all (kept : ∀ e ∈ s.table.entries, keep e) : s.keeping keep = s := by
  rw [keeping, List.filter_eq_self.mpr kept]

/-- Clearing an address drops the entry that is there. -/
theorem Sound.erase_eq_keeping (sound : s.Sound) (address : Nat) :
    { s with table := { s.table with entries := Keyed.erase address s.table.entries } } =
      s.keeping (·.1 ≠ address) := by
  rw [Storage.keeping, sound.distinct.erase_eq_filter]

/-! ## Expiries -/

/-- An expiry drops the entry of its ticket if the key is dead, and no other entry: not even the one
of an object that has come to the same address. -/
theorem Sound.expire_eq_keeping (sound : s.Sound) (ticket : Nat) :
    s.expire ticket = s.keeping fun e => s.residents.alive e.2.key || e.2.ticket != ticket := by
  rw [expire]
  split
  case h_2 unissued =>
    refine (keeping_all fun e member => ?_).symm
    have issued := sound.named e member
    have different : e.2.ticket ≠ ticket := by
      rintro rfl
      rw [unissued] at issued
      cases issued
    simp [different]
  case h_1 about issued =>
    have named : ∀ e ∈ s.table.entries, e.2.ticket = ticket →
        e.1 = about.address ∧ e.2.key = about.key := by
      rintro e member rfl
      rw [sound.named e member] at issued
      cases issued
      exact ⟨rfl, rfl⟩
    split
    · rename_i living
      refine (keeping_all fun e member => ?_).symm
      by_cases mine : e.2.ticket = ticket
      · simp [(named e member mine).2, living]
      · simp [mine]
    rename_i dead
    rw [WeakTable.expire]
    split
    · rename_i found here
      have only : ∀ e ∈ s.table.entries, e.1 = about.address → e.2 = found := by
        intro e member there
        rw [← there, sound.distinct.find?_of_mem member] at here
        exact Option.some.inj here
      split
      · rename_i mine
        rw [sound.erase_eq_keeping]
        refine keeping_congr fun e member => ?_
        by_cases there : e.1 = about.address
        · have same := only e member there
          have gone := (named e member (same ▸ mine)).2
          simp [there, same ▸ mine, gone, dead]
        · have different : e.2.ticket ≠ ticket := fun mine => there (named e member mine).1
          simp [there, different]
      · rename_i other
        refine (keeping_all fun e member => ?_).symm
        have different : e.2.ticket ≠ ticket := fun mine =>
          other (only e member (named e member mine).1 ▸ mine)
        simp [different]
    · rename_i nothing
      refine (keeping_all fun e member => ?_).symm
      have different : e.2.ticket ≠ ticket := by
        intro mine
        rw [← (named e member mine).1, sound.distinct.find?_of_mem member] at nothing
        cases nothing
      simp [different]

/-! ## The table and the dictionary side by side -/

/-- A storage and a register with the same objects, where the table gives for a live object what the
dictionary gives, and the dictionary is about nothing else. -/
structure Mirrors (s : Storage α) (r : Register α) : Prop where
  sound : s.Sound
  residents : s.residents = r.residents
  value : ∀ key, s.residents.alive key → r.values key = s.get? key
  absent : ∀ key, s.residents.alive key = false → r.values key = none

variable {r : Register α}

theorem mirrors_empty : (empty : Storage α).Mirrors Register.empty where
  sound := sound_empty
  residents := rfl
  value := fun _ living => by cases living
  absent := fun _ _ => rfl

/-- A new entry is found by its key, and hides no entry of another live key. -/
theorem Sound.get?_put (sound : s.Sound) {key other : Nat} (living : s.residents.alive key)
    (living' : s.residents.alive other) (value : α) :
    (s.put key value).get? other = if other = key then some value else s.get? other := by
  split
  · rename_i same
    subst same
    exact WeakTable.get?_set_self _ _ _ _
  · rename_i different
    refine WeakTable.get?_set_of_ne _ (fun same => different ?_) _ _ _
    exact sound.apart other key living' living same

theorem Mirrors.make (mirrors : s.Mirrors r) (resident : Resident) :
    { s with residents := s.residents.make resident }.Mirrors
      { r with residents := r.residents.make resident } := by
  have sound := mirrors.sound.make resident
  obtain same | ⟨-, made⟩ := s.residents.make_cases resident
  · rw [← mirrors.residents, same]
    exact { mirrors with residents := rfl }
  rw [← mirrors.residents]
  rw [made] at sound ⊢
  refine ⟨sound, rfl, fun key living => ?_, fun key dead => ?_⟩
  · rcases Residents.alive_or_last_of_append living with living | rfl
    · rw [get?, Residents.address_append _ _ (Residents.lt_length_of_alive living)]
      exact mirrors.value key living
    -- The new object is no key yet, and what may still be at its address was made for another.
    · have unknown : s.residents.alive s.residents.length = false := by
        by_contra known
        exact absurd (Residents.lt_length_of_alive (by simpa using known)) (Nat.lt_irrefl _)
      rw [mirrors.absent _ unknown]
      symm
      by_contra found
      obtain ⟨value, found⟩ := Option.ne_none_iff_exists'.mp found
      obtain ⟨e, member, -, last, -⟩ := WeakTable.exists_entry_of_get? found
      exact absurd (mirrors.sound.made e member) (by rw [last]; exact Nat.lt_irrefl _)
  · refine mirrors.absent key ?_
    by_contra living
    rw [Bool.not_eq_false] at living
    rw [Residents.alive_append _ _ (Residents.lt_length_of_alive living)] at dead
    exact absurd living (by rw [dead]; exact Bool.false_ne_true)

theorem Mirrors.bury (mirrors : s.Mirrors r) (key : Nat) :
    { s with residents := s.residents.bury key }.Mirrors
      { r.write key none with residents := r.residents.bury key } where
  sound := mirrors.sound.bury key
  residents := congrArg (Residents.bury · key) mirrors.residents
  value := fun other living => by
    rw [Residents.alive_bury, Bool.and_eq_true, decide_eq_true_iff] at living
    rw [get?, Residents.address_bury]
    exact (Function.update_of_ne living.1 _ _).trans (mirrors.value other living.2)
  absent := fun other dead => by
    rw [Residents.alive_bury, Bool.and_eq_false_iff, decide_eq_false_iff_not, not_not] at dead
    by_cases same : other = key
    · rw [same]
      exact Function.update_self _ _ _
    · exact (Function.update_of_ne same _ _).trans (mirrors.absent other (dead.resolve_left same))

theorem Mirrors.put (mirrors : s.Mirrors r) {key : Nat} (living : s.residents.alive key)
    (value : α) : (s.put key value).Mirrors (r.write key (some value)) where
  sound := mirrors.sound.put living value
  residents := mirrors.residents
  value := fun other living' => by
    rw [mirrors.sound.get?_put living living']
    by_cases same : other = key
    · rw [if_pos same, same]
      exact Function.update_self _ _ _
    · rw [if_neg same]
      exact (Function.update_of_ne same _ _).trans (mirrors.value other living')
  absent := fun other dead => by
    have different : other ≠ key := by
      rintro rfl
      exact absurd living (by rw [show s.residents.alive other = false from dead]; simp)
    exact (Function.update_of_ne different _ _).trans (mirrors.absent other dead)

/-- Clearing the address of a live key takes away its value and no other. -/
theorem Mirrors.erase (mirrors : s.Mirrors r) {key : Nat} (living : s.residents.alive key) :
    { s with table := { s.table with
        entries := Keyed.erase (s.residents.address key) s.table.entries } }.Mirrors
      (r.write key none) := by
  rw [mirrors.sound.erase_eq_keeping]
  refine ⟨mirrors.sound.keeping, mirrors.residents, fun other living' => ?_, fun other dead => ?_⟩
  · by_cases same : other = key
    · subst same
      refine (Function.update_self _ _ _).trans (get?_keeping_of_lost fun e member about => ?_).symm
      simp [mirrors.sound.placed e member, about]
    · refine (Function.update_of_ne same _ _).trans ((mirrors.value other living').trans ?_)
      refine (mirrors.sound.get?_keeping fun e member about => ?_).symm
      refine decide_eq_true fun there => same (mirrors.sound.apart other key living' living ?_)
      rw [← there, mirrors.sound.placed e member, about]
  · by_cases same : other = key
    · rw [same]
      exact Function.update_self _ _ _
    · exact (Function.update_of_ne same _ _).trans (mirrors.absent other dead)

theorem Mirrors.expire (mirrors : s.Mirrors r) (ticket : Nat) : (s.expire ticket).Mirrors r := by
  rw [mirrors.sound.expire_eq_keeping]
  refine ⟨mirrors.sound.keeping, mirrors.residents, fun key living => ?_, mirrors.absent⟩
  refine (mirrors.value key living).trans (mirrors.sound.get?_keeping fun e _ about => ?_).symm
  rw [about, show s.residents.alive key = true from living, Bool.true_or]

theorem mem_liveKeys_iff (sound : s.Sound) (key : Nat) :
    key ∈ (s.table.entries.filter fun e => s.residents.alive e.2.key).map (·.2.key) ↔
      s.residents.alive key ∧ (s.get? key).isSome := by
  rw [List.mem_map]
  constructor
  · rintro ⟨e, member, rfl⟩
    obtain ⟨member, living⟩ := List.mem_filter.mp member
    refine ⟨living, ?_⟩
    rw [sound.get?_of_mem member]
    rfl
  · rintro ⟨living, found⟩
    obtain ⟨value, found⟩ := Option.isSome_iff_exists.mp found
    obtain ⟨e, member, rfl, -⟩ := exists_entry_of_get? found
    exact ⟨e, List.mem_filter.mpr ⟨member, living⟩, rfl⟩

/-- No object has two entries. -/
theorem Sound.nodup_liveKeys (sound : s.Sound) :
    ((s.table.entries.filter fun e => s.residents.alive e.2.key).map (·.2.key)).Nodup := by
  have addresses : ((s.table.entries.filter fun e => s.residents.alive e.2.key).map
      (·.2.key)).map s.residents.address =
      (s.table.entries.filter fun e => s.residents.alive e.2.key).map Prod.fst := by
    rw [List.map_map]
    exact List.map_congr_left fun e member =>
      (sound.placed e (List.mem_filter.mp member).1).symm
  refine List.Nodup.of_map s.residents.address ?_
  rw [addresses]
  exact sound.distinct.sublist List.filter_sublist

/-- The entries of live keys are as many as the dictionary has keys. -/
theorem Mirrors.size (mirrors : s.Mirrors r) :
    s.table.size s.residents.alive = r.size := by
  have keys : ((s.table.entries.filter fun e => s.residents.alive e.2.key).map (·.2.key)).Perm
      ((List.range r.residents.length).filter fun key => (r.values key).isSome) := by
    refine (List.perm_ext_iff_of_nodup mirrors.sound.nodup_liveKeys
      (List.nodup_range.filter _)).mpr fun key => ?_
    rw [mem_liveKeys_iff mirrors.sound, List.mem_filter, List.mem_range, ← mirrors.residents]
    constructor
    · rintro ⟨living, found⟩
      rw [mirrors.value key living]
      exact ⟨Residents.lt_length_of_alive living, found⟩
    · rintro ⟨-, found⟩
      cases living : s.residents.alive key with
      | false =>
          rw [mirrors.absent key living] at found
          cases found
      | true => exact ⟨rfl, by rwa [← mirrors.value key living]⟩
  rw [WeakTable.size, Register.size, ← keys.length_eq, List.length_map]

/-- A request about a live key is answered as by the dictionary, and changes as much. -/
theorem Mirrors.request (mirrors : s.Mirrors r) {key : Nat} (living : s.residents.alive key)
    (q : TableRequest α) :
    (s.request key q).1.Mirrors (r.request key q).1 ∧
      (s.request key q).2 = (r.request key q).2 := by
  have found := mirrors.value key living
  cases q with
  | set value =>
      simp only [Storage.request, Register.request, ← mirrors.residents]
      split
      · exact ⟨mirrors.put living value, rfl⟩
      · exact ⟨mirrors, rfl⟩
  | get default => exact ⟨mirrors, by simp only [Storage.request, Register.request, found]⟩
  | getItem =>
      simp only [Storage.request, Register.request, found, ← mirrors.residents]
      cases s.get? key with
      | some value => exact ⟨mirrors, rfl⟩
      | none => exact ⟨mirrors, rfl⟩
  | contains =>
      refine ⟨mirrors, ?_⟩
      simp only [Storage.request, Register.request, found]
      exact congrArg TableReply.truth (WeakTable.has_eq_isSome_get? _ _ _)
  | delete =>
      simp only [Storage.request, Register.request, found, ← mirrors.residents,
        WeakTable.erase?, WeakTable.has_eq_isSome_get?]
      rw [show s.table.get? (s.residents.address key) key = s.get? key from rfl]
      cases s.get? key with
      | some value => exact ⟨mirrors.erase living, rfl⟩
      | none => exact ⟨mirrors, rfl⟩

theorem Mirrors.perform (mirrors : s.Mirrors r) (step : StorageStep α) :
    (s.perform step).1.Mirrors (r.perform step).1 ∧
      (s.perform step).2 = (r.perform step).2 := by
  cases step with
  | make resident => exact ⟨mirrors.make resident, rfl⟩
  | die key => exact ⟨mirrors.bury key, rfl⟩
  | expire ticket => exact ⟨mirrors.expire ticket, rfl⟩
  | request key q =>
      simp only [Storage.perform, Register.perform, ← mirrors.residents]
      split
      · rename_i living
        exact mirrors.request living q
      · exact ⟨mirrors, rfl⟩
  | size => exact ⟨mirrors, congrArg TableReply.count mirrors.size⟩

theorem Mirrors.run (mirrors : s.Mirrors r) (steps : List (StorageStep α)) :
    (s.run steps).1.Mirrors (r.run steps).1 ∧ (s.run steps).2 = (r.run steps).2 := by
  induction steps generalizing s r with
  | nil => exact ⟨mirrors, rfl⟩
  | cons step rest ih =>
      obtain ⟨next, reply⟩ := mirrors.perform step
      obtain ⟨last, replies⟩ := ih next
      exact ⟨last, congrArg₂ List.cons reply replies⟩

end Storage

/-! ## Requests about one key -/

namespace Register

variable {α : Type} (r : Register α)

@[simp] theorem residents_request (key : Nat) (q : TableRequest α) :
    (r.request key q).1.residents = r.residents := by
  cases q with
  | set value => simp only [request, write]; split <;> rfl
  | get default => rfl
  | getItem => simp only [request]; split <;> rfl
  | contains => rfl
  | delete => simp only [request, write]; split <;> rfl

/-- A request writes the value of its key and no other. -/
theorem values_request_of_ne {key other : Nat} (different : other ≠ key) (q : TableRequest α) :
    (r.request key q).1.values other = r.values other := by
  cases q with
  | set value =>
      simp only [request, write]
      split
      · exact Function.update_of_ne different _ _
      · rfl
  | get default => rfl
  | getItem => simp only [request]; split <;> rfl
  | contains => rfl
  | delete =>
      simp only [request, write]
      split
      · exact Function.update_of_ne different _ _
      · rfl

/-- The answer to a request is read off the objects and the value of its key. -/
theorem reply_congr {r r' : Register α} (residents : r'.residents = r.residents) {key : Nat}
    (value : r'.values key = r.values key) (q : TableRequest α) :
    (r'.request key q).2 = (r.request key q).2 := by
  cases q with
  | set => simp only [request, residents]; split <;> rfl
  | get => simp only [request, value]
  | getItem => simp only [request, value, residents]; split <;> rfl
  | contains => simp only [request, value]
  | delete => simp only [request, value, residents]; split <;> rfl

end Register

namespace Storage

variable {α : Type} {s : Storage α}

/-- A request that fails changes nothing. -/
theorem request_of_failed {key : Nat} {q : TableRequest α} {f : Fault}
    (failed : (s.request key q).2 = .failed f) : (s.request key q).1 = s := by
  cases q with
  | set value =>
      simp only [request] at failed ⊢
      split
      · rename_i referable
        rw [if_pos referable] at failed
        cases failed
      · rfl
  | get default => rfl
  | getItem => simp only [request]; split <;> rfl
  | contains => rfl
  | delete =>
      simp only [request] at failed ⊢
      split
      · rename_i found
        rw [found] at failed
        cases failed
      · rfl

/-- A weak table is a dictionary on the objects that are alive, whatever is made and dies, and
however late the expiries run: every answer, the number of entries among them, is the one of the
dictionary. A request about one key leaves the answers for all other live keys, a key that cannot be
referred to weakly is refused with a type error, and a request that fails changes nothing. -/
theorem answers_as_dictionary (steps : List (StorageStep α)) :
    ((empty : Storage α).run steps).2 = (Register.empty.run steps).2 ∧
      let s := ((empty : Storage α).run steps).1
      (∀ key other q q', other ≠ key → s.residents.alive other →
        ((s.perform (.request key q)).1.perform (.request other q')).2 =
          (s.perform (.request other q')).2) ∧
      (∀ key value, s.residents.alive key → s.residents.referable key = false →
        ∃ f, s.perform (.request key (.set value)) = (s, .failed f) ∧
          f.report.kind = .standard "TypeError") ∧
      ∀ key q f, (s.perform (.request key q)).2 = .failed f →
        (s.perform (.request key q)).1 = s := by
  obtain ⟨mirrors, replies⟩ := mirrors_empty.run steps
  refine ⟨replies, ?_⟩
  generalize ((empty : Storage α).run steps).1 = s at mirrors
  generalize (Register.empty.run steps).1 = r at mirrors
  refine ⟨fun key other q q' different living => ?_, fun key value living plain => ?_,
    fun key q f failed => ?_⟩
  · obtain ⟨after, -⟩ := mirrors.perform (.request key q)
    rw [(after.perform _).2, (mirrors.perform _).2]
    by_cases asked : r.residents.alive key
    · simp only [Register.perform, if_pos asked, Register.residents_request]
      split
      · exact Register.reply_congr (r.residents_request key q)
          (r.values_request_of_ne different q) q'
      · rfl
    · simp only [Register.perform, if_neg asked]
  · refine ⟨.noWeakReference (s.residents.typeName key), ?_, rfl⟩
    simp only [perform, if_pos living, request, plain, Bool.false_eq_true, if_false]
  · simp only [perform] at failed ⊢
    split
    · rename_i living
      rw [if_pos living] at failed
      exact request_of_failed failed
    · rfl

/-- An object dies and another comes to its address. The expiry of the first runs when the second
has an entry of its own; there is also an object that cannot be referred to weakly. -/
def reuse : List (StorageStep Nat) :=
  [.make ⟨16, "Key", "old", true, true⟩, .request 0 (.set 1), .die 0,
    .make ⟨16, "Key", "new", true, true⟩, .request 1 .contains, .request 1 (.set 2), .expire 0,
    .request 1 .getItem, .make ⟨32, "int", "7", false, true⟩, .request 2 (.set 3), .size]

theorem answers_as_dictionary_reuse :
    ((empty : Storage Nat).run reuse).2 =
        [.done, .done, .done, .done, .truth false, .done, .done, .value 2, .done,
          .failed (.noWeakReference "int"), .count 1] ∧
      (let s := ((empty : Storage Nat).run reuse).1
      ((s.perform (.request 2 .delete)).1.perform (.request 1 .getItem)).2 = .value 2 ∧
        (∃ f, s.perform (.request 2 (.set 3)) = (s, .failed f) ∧
          f.report.kind = .standard "TypeError") ∧
        (s.perform (.request 2 .delete)).1 = s) := by
  obtain ⟨replies, apart, refused, kept⟩ := answers_as_dictionary reuse
  refine ⟨replies.trans rfl, ?_, ?_, ?_⟩
  · exact (apart 2 1 .delete .getItem (by decide) (by decide)).trans rfl
  · exact refused 2 3 (by decide) (by decide)
  · exact kept 2 .delete (.missingKey "7") rfl

end Storage

end CallableKinds
