import CallableKinds.Fault
import CallableKinds.WeakTable

/-!
# Scopes

A weak table whose keys are objects with names. An object lives while a name stands for it or an
entry of the table has it as its value. When the last of these goes, the object dies and its entry
expires, and with that the object that was its value may die too.
-/

namespace CallableKinds

/-- What a name stands for: an object, or plain data that cannot be referred to weakly. -/
inductive ScopeKey where
  | object (identity : Nat)
  | plain (d : Datum)

/-- A value in the table. -/
inductive ScopeValue where
  | object (identity : Nat)
  | plain (d : Datum)

namespace ScopeValue

/-- The object that a value is. -/
def identity? : ScopeValue → Option Nat
  | object identity => some identity
  | plain _ => none

end ScopeValue

/-- A weak table and the names of its keys. -/
structure Scope where
  /-- The names that the objects were made under, by identity. -/
  objects : List String
  names : Keyed String ScopeKey
  table : WeakTable Nat ScopeValue

/-- What a step gives in place of a value. -/
inductive ScopeInput where
  | plain (d : Datum)
  /-- What a name stands for. -/
  | named (name : String)

/-- A question to a scope or a change of it. -/
inductive ScopeStep where
  | make (name : String)
  | makePlain (name : String) (d : Datum)
  | alias (name of : String)
  | drop (name : String)
  | set (name : String) (value : ScopeInput)
  | get (name : String) (default : ScopeInput)
  | getItem (name : String)
  | contains (name : String)
  | delete (name : String)
  | print

/-- The answer to a step. -/
inductive ScopeAnswer where
  | done (word : String)
  | plain (d : Datum)
  /-- An object, by the name that it was made under. -/
  | object (name : String)
  | truth (b : Bool)
  | failed (f : Fault)

namespace Scope

/-- The scope without names. -/
def empty : Scope := ⟨[], [], .empty⟩

/-- The objects that names stand for. -/
def named (s : Scope) : List Nat :=
  s.names.filterMap fun n => match n.2 with
    | .object identity => some identity
    | .plain _ => none

/-- Whether an object is held by a name or by an entry. -/
def alive (s : Scope) (identity : Nat) : Bool :=
  s.named.contains identity || (s.table.values.filterMap ScopeValue.identity?).contains identity

/-- The scope after the entries of dead objects have expired, looked at so many times. -/
def settleFrom : Nat → Scope → Scope
  | 0, s => s
  | rounds + 1, s => settleFrom rounds { s with table := s.table.prune s.alive }

/-- The scope after all deaths. Every round but the last expires an entry. -/
def settle (s : Scope) : Scope := settleFrom s.table.entries.length s

/-- What a name stands for. -/
def resolve (s : Scope) (name : String) : ScopeKey := (Keyed.find? name s.names).getD (.plain .none)

/-- The name that an object was made under. -/
def nameOf (s : Scope) (identity : Nat) : String := (s.objects[identity]?).getD ""

/-- The written form of a key. -/
def printKey (s : Scope) : ScopeKey → String
  | .object identity => "Key(" ++ s.nameOf identity ++ ")"
  | .plain d => d.print

/-- The value that an input stands for. -/
def value (s : Scope) : ScopeInput → ScopeValue
  | .plain d => .plain d
  | .named name =>
    match s.resolve name with
    | .object identity => .object identity
    | .plain d => .plain d

/-- The answer that a value is. -/
def answer (s : Scope) : ScopeValue → ScopeAnswer
  | .object identity => .object (s.nameOf identity)
  | .plain d => .plain d

/-- The value of a key in the table. -/
def get? (s : Scope) : ScopeKey → Option ScopeValue
  | .object identity => s.table.get? identity identity
  | .plain _ => none

/-- Carries out a step, before any object dies of it. -/
def perform (s : Scope) : ScopeStep → Scope × ScopeAnswer
  | .make name =>
    ({ s with objects := s.objects ++ [name],
              names := Keyed.put name (.object s.objects.length) s.names }, .done "made")
  | .makePlain name d => ({ s with names := Keyed.put name (.plain d) s.names }, .done "made")
  | .alias name of => ({ s with names := Keyed.put name (s.resolve of) s.names }, .done "made")
  | .drop name => ({ s with names := Keyed.erase name s.names }, .done "dropped")
  | .set name input =>
    match s.resolve name with
    | .object identity =>
      ({ s with table := s.table.set identity identity (s.value input) }, .done "set")
    | .plain d => (s, .failed (.noWeakReference d.typeName))
  | .get name default => (s, s.answer ((s.get? (s.resolve name)).getD (s.value default)))
  | .getItem name =>
    match s.get? (s.resolve name) with
    | some v => (s, s.answer v)
    | none => (s, .failed (.missingKey (s.printKey (s.resolve name))))
  | .contains name => (s, .truth (s.get? (s.resolve name)).isSome)
  | .delete name =>
    let missing := ScopeAnswer.failed (.missingKey (s.printKey (s.resolve name)))
    match s.resolve name with
    | .object identity =>
      match s.table.erase? identity identity with
      | some table => ({ s with table }, .done "deleted")
      | none => (s, missing)
    | .plain _ => (s, missing)
  | .print =>
    (s, .done ("identityweakdict(<" ++ toString s.table.entries.length ++ " entries>)"))

/-- The answers to a list of steps, each with the number of entries after it. -/
def run (s : Scope) : List ScopeStep → List (ScopeAnswer × Nat)
  | [] => []
  | step :: rest =>
    let (t, answer) := s.perform step
    let t := t.settle
    (answer, t.table.entries.length) :: t.run rest

end Scope

end CallableKinds
