import CallableKinds.Fault
import CallableKinds.Keyed

/-!
# Frozen dictionaries

Dictionaries that are never changed: setting a key or updating with other dictionaries gives a new
one, unless nothing would change, in which case the answer is the old dictionary itself. A value is
an object or nothing; a key that is missing reads as nothing. Keys that compare equal are one key.
-/

namespace CallableKinds

/-- The classes of frozen dictionaries. -/
inductive FrozenClass where
  /-- Items are read by key only. -/
  | plain
  /-- Items can be read as attributes. -/
  | attributed
  /-- The features of a callable, which can be read as attributes. -/
  | record
  deriving Repr, DecidableEq, Inhabited

namespace FrozenClass

/-- The name of a class. -/
def name : FrozenClass → String
  | plain => "immutabledict"
  | attributed => "immutableadict"
  | record => "FeatureRecord"

/-- The class with a given name. -/
def ofName? (name : String) : Option FrozenClass :=
  [plain, attributed, record].find? (·.name == name)

end FrozenClass

/-- A frozen dictionary with keys from `κ` whose values are objects from `α` or nothing. -/
structure Frozen (κ α : Type) where
  cls : FrozenClass
  items : Keyed κ (Option α)
  deriving Repr, DecidableEq, Inhabited

namespace Frozen

variable {κ α : Type} [DecidableEq κ] [DecidableEq α]

/-- The value of a key, or nothing. -/
def get (d : Frozen κ α) (key : κ) : Option α := (Keyed.find? key d.items).join

/-- The value of a key that has to be there. -/
def getItem (d : Frozen String α) (key : String) : Except Fault (Option α) :=
  match Keyed.find? key d.items with
  | some value => .ok value
  | none => .error (.missingKey (quoteString key))

/-- The dictionary with a new value for a key, or `none` if it has that very value already. -/
def set? (d : Frozen κ α) (key : κ) (value : Option α) : Option (Frozen κ α) :=
  if Keyed.find? key d.items = some value then none
  else some { d with items := Keyed.put key value d.items }

/-- The dictionary with some new values, or `none` if all of its keys read as them already. -/
def update? (d : Frozen κ α) (values : Keyed κ (Option α)) : Option (Frozen κ α) :=
  if values.all fun (key, value) => d.get key == value then none
  else some { d with items := Keyed.putAll d.items values }

/-- Whether two dictionaries have the same items, in any order. -/
def sameItems (d e : Frozen κ α) : Bool :=
  d.items.length == e.items.length &&
    d.items.all fun (key, value) => Keyed.find? key e.items == some value

/-- The written form of a dictionary, from the written form of an object. -/
def print (object : α → String) (d : Frozen String α) : String :=
  let item := fun (key, value) => quoteString key ++ ": " ++ (value.elim "None" object)
  d.cls.name ++ "(\x7b" ++ ", ".intercalate (d.items.map item) ++ "\x7d)"

end Frozen

end CallableKinds
