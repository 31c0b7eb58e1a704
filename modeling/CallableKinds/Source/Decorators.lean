import CallableKinds.Code.Extent

/-!
# Decorators

The decorators of a definition stand in front of it, each on a logical line of its own that begins
with `@`, with blanks and comment lines in between.
-/

namespace CallableKinds

/-- The position after the last code character of a line that is no blank. -/
def codeEnd : List Spot → Nat
  | [] => 0
  | s :: rest =>
    match codeEnd rest with
    | 0 => if isBlank s.char then 0 else s.pos + 1
    | later + 1 => later + 1

/-- The line up to its last code character that is no blank: a comment at its end is dropped. -/
def stripComment (line : List Char) : Except Fault (List Char) := do
  let spots ← (lex line).complete
  return line.take (codeEnd spots)

/-- A definition and the expressions of the decorators in front of it. -/
structure Decorated where
  decorators : List (List Char)
  definition : List Char
  deriving Repr, DecidableEq

namespace Decorated

/-- Separates the decorators from a definition. The first `skip` characters are done with. -/
def splitFrom : (skip : Nat) → List Char → Except Fault Decorated
  | _, [] => .ok ⟨[], []⟩
  | skip + 1, _ :: rest => splitFrom skip rest
  | 0, c :: rest =>
    if isBlank c then splitFrom 0 rest
    else if c = '#' then splitFrom (lineLength rest) rest
    else if c = '@' then do
      let length ← logicalLineEnd rest 0
      let expression ← stripComment (rest.take length)
      let d ← splitFrom length rest
      return { d with decorators := squeeze expression :: d.decorators }
    else .ok ⟨[], c :: rest⟩

/-- Separates the decorators from a definition. -/
def split (source : List Char) : Except Fault Decorated := splitFrom 0 source

end Decorated

end CallableKinds
