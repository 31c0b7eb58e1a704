import CallableKinds.Fault
import CallableKinds.Text.Mention

/-!
# Trust in a source serializer

A source serializer answers with the source text of the callable it is asked for. It is trusted only
if it can serialize itself.
-/

namespace CallableKinds

/-- Something that is offered as a source serializer. -/
inductive Serializer where
  | missing
  /-- Something that cannot be called. -/
  | inert
  /-- A callable, by its name and what it answers about itself. -/
  | callable (name : Option Datum) (answer : Except Report Datum)

namespace Serializer

/-- The text that begins the definition of a function. -/
def definitionOf (name : List Char) : List Char := ['d', 'e', 'f', ' '] ++ name ++ ['(']

/-- Trusts a serializer that answers with the definition of its own name, or says why not. -/
def verify : Serializer → Except Fault Unit
  | missing => .error (.tampered .missing)
  | inert => .error (.tampered .notCallable)
  | callable _ (.error error) => .error (.tampered (.failed error))
  | callable name (.ok (.str source)) =>
    match name with
    | some (.str name) =>
      if mentions (definitionOf name.toList) source.toList then .ok ()
      else .error (.tampered .foreignText)
    | _ => .error (.tampered .foreignText)
  | callable _ (.ok _) => .error (.tampered .notText)

end Serializer

end CallableKinds
