import CallableKinds.Code.Lexed
import CallableKinds.Text.Spacing

/-!
# Extents

Where a logical line ends and where an expression ends. Both read the code characters from a
position on and count brackets from there.

A logical line ends at the first newline that stands neither inside brackets nor after a backslash.
An expression ends before a bracket that it did not open, and at its own level before a comma, a
semicolon, a colon or the word `for`, or with its logical line. The commas and the colon of a
`lambda` header belong to the expression, so the headers that are open are counted; while one is
open, no `for` ends the expression.
-/

namespace CallableKinds

/-- The word that begins an anonymous function. -/
def lambdaWord : List Char := ['l', 'a', 'm', 'b', 'd', 'a']

/-- The word that begins a class statement. -/
def classWord : List Char := ['c', 'l', 'a', 's', 's']

/-- The word that begins the clause of a comprehension. -/
def forWord : List Char := ['f', 'o', 'r']

/-- The newline that ends a logical line, read at bracket depth `depth`. -/
def lineStop (depth : Int) : List Spot → Option Nat
  | [] => none
  | s :: rest =>
    if isOpening s.char then lineStop (depth + 1) rest
    else if isClosing s.char then lineStop (depth - 1) rest
    else if s.endsLine && decide (depth ≤ 0) then some s.pos
    else lineStop depth rest

/-- The position of the newline that ends the logical line at `start`, or the end of the text. -/
def logicalLineEnd (text : List Char) (start : Nat) : Except Fault Nat :=
  let l := lexAt text start
  l.found (lineStop 0 l.spots) text.length

/-- The code character before which an expression ends, read at bracket depth `depth` with `open`
headers that wait for their colon. -/
def expressionStop (depth : Nat) (headers : Int) : List Spot → Option Nat
  | [] => none
  | s :: rest =>
    if isOpening s.char then expressionStop (depth + 1) headers rest
    else if isClosing s.char then
      match depth with
      | 0 => some s.pos
      | depth + 1 => expressionStop depth headers rest
    else if 0 < depth then expressionStop depth headers rest
    else if s.endsLine || s.char == ';' then some s.pos
    else if s.char == ',' then
      if headers = 0 then some s.pos else expressionStop depth headers rest
    else if s.char == ':' then
      if headers = 0 then some s.pos else expressionStop depth (headers - 1) rest
    else if s.startsWord lambdaWord then expressionStop depth (headers + 1) rest
    else if headers = 0 && s.startsWord forWord then some s.pos
    else expressionStop depth headers rest

/-- The position after the expression at `start`, where `headers` headers are open. A comment is
left out with all that follows it, and so are the blanks at the end. -/
def expressionEnd (text : List Char) (start : Nat) (headers : Int) : Except Fault Nat := do
  let l := lexAt text start
  let stop ← l.found (expressionStop 0 headers l.spots) text.length
  let stop := (l.firstComment?.filter (· < stop)).getD stop
  return if start < stop then (trimRight (text.take stop)).length else stop

end CallableKinds
