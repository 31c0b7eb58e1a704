import CallableKinds.Code.Extent
import CallableKinds.Code.Split

/-!
# Isolating an anonymous function

The source that is known of an anonymous function is the statement it stands in. Its expression is
the first one in the statement whose parameter names are those of the function.
-/

namespace CallableKinds

/-- The name of one parameter: without the stars in front and the default behind. -/
def parameterName (part : List Char) : List Char :=
  trim ((part.dropWhile (· == '*')).takeWhile (· != '='))

/-- The names in a parameter list; the marks `/` and `*` are no parameters. -/
def parameterNames (params : List Char) : Except Fault (List (List Char)) := do
  let parts ← splitTopLevel params [',']
  let marks : List (List Char) := [[], ['/'], ['*']]
  return ((parts.map trim).filter fun part => !marks.contains part).map parameterName

/-- The anonymous functions of a text in order, up to the first one whose end cannot be found. -/
structure LambdaExpressions where
  found : List (List Char)
  failure : Option Fault

namespace LambdaExpressions

/-- The expressions with one more in front. -/
def cons (expression : List Char) (es : LambdaExpressions) : LambdaExpressions :=
  { es with found := expression :: es.found }

/-- The expressions that start at the given code characters of a text. -/
def starting (text : List Char) (unclosed : Option (List Char)) : List Spot → LambdaExpressions
  | [] => ⟨[], unclosed.map .unmatchedDelimiter⟩
  | s :: rest =>
    if s.startsWord lambdaWord then
      match expressionEnd text s.pos 0 with
      | .ok stop => (starting text unclosed rest).cons (slice text s.pos stop)
      | .error fault => ⟨[], some fault⟩
    else starting text unclosed rest

/-- The anonymous functions of a text. -/
def ofText (text : List Char) : LambdaExpressions :=
  let l := lex text
  starting text l.unclosed l.spots

/-- All of the expressions, if all could be found. -/
def complete (es : LambdaExpressions) : Except Fault (List (List Char)) :=
  match es.failure with
  | none => .ok es.found
  | some fault => .error fault

end LambdaExpressions

/-- The parameter names in the header of an anonymous function. -/
def headerNames (expression : List Char) : Except Fault (List (List Char)) := do
  let parts ← splitTopLevel (expression.drop lambdaWord.length) [':']
  parameterNames (parts.headD [])

/-- The first expression with the given parameter names. -/
def withNames (names : List (List Char)) :
    List (List Char) → Except Fault (Option (List Char))
  | [] => .ok none
  | expression :: rest => do
    if (← headerNames expression) = names then return some expression
    else withNames names rest

/-- Cuts the expression of an anonymous function out of a statement. Without names, or if no
expression has them, it is the first one; a statement without one is kept whole. Text behind the
expression that is taken does not matter. -/
def isolateLambda (text : List Char) (names : Option (List (List Char))) :
    Except Fault (List Char) := do
  let es := LambdaExpressions.ofText text
  match names, es.found with
  | none, first :: _ => return first
  | none, [] => return (← es.complete).headD text
  | some names, found =>
    match ← withNames names found with
    | some expression => return expression
    | none => return (← es.complete).headD text

end CallableKinds
