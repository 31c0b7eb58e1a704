import CallableKinds.Code.Extent
import CallableKinds.Code.Split

/-!
# Segments

The source text of a callable is a head, a parameter list and a body. A definition has its
parameters between the first parentheses outside of square brackets; an anonymous function has
them between its keyword and its colon; a class without bases has none, and its head ends at the
colon. The segments are collapsed, and as no cut falls inside a run of blanks, they make up the
collapsed text.
-/

namespace CallableKinds

/-- The parts of a source text. -/
structure Segments where
  /-- The first group in square brackets before the parameters, such as the type parameters. -/
  symbolName : Option (List Char)
  head : List Char
  params : List Char
  body : List Char
  /-- There are no parentheses around the parameters. -/
  implicit : Bool
  deriving Repr, DecidableEq, Inhabited

namespace Segments

/-- Whether a text begins with a keyword as a whole word. -/
def beginsWith (keyword text : List Char) : Bool := startsWord keyword none text

/-- The segments of `text` with the parameters from `start` up to `stop`. -/
def cut (text : List Char) (start stop : Nat) (symbol : Option (Nat × Nat)) (implicit : Bool) :
    Segments where
  symbolName := symbol.map fun (first, last) => squeeze (slice text first (last + 1))
  head := collapse (text.take start)
  params := collapse (slice text start stop)
  body := collapse (text.drop stop)
  implicit := implicit

/-- The colon that ends the header of an anonymous function. Headers inside default values have
colons of their own, so the first colon that none of them claims is the one. -/
def headerColon (depth : Int) (headers : Nat) : List Spot → Option Nat
  | [] => none
  | s :: rest =>
    if isOpening s.char then headerColon (depth + 1) headers rest
    else if isClosing s.char then headerColon (depth - 1) headers rest
    else if depth = 0 && s.startsWord lambdaWord then headerColon depth (headers + 1) rest
    else if depth = 0 && s.char == ':' then
      if headers = 0 then some s.pos else headerColon depth (headers - 1) rest
    else headerColon depth headers rest

/-- Scans the source text of an anonymous function. -/
def scanLambda (text : List Char) : Except Fault Segments :=
  let first := lambdaWord.length
  let l := lexAt text first
  match headerColon 0 0 l.spots with
  | some colon =>
    let gap := ((slice text first colon).takeWhile isBlank).length
    .ok (cut text (first + gap) colon none true)
  | none =>
    match l.unclosed with
    | some delimiter => .error (.unmatchedDelimiter delimiter)
    | none => .error .noLambdaColon

/-- What is known of the square brackets in front of the parameters. -/
structure Brackets where
  depth : Nat
  first : Option Nat
  last : Option Nat
  deriving Repr, DecidableEq

namespace Brackets

/-- The state before any bracket. -/
def initial : Brackets := ⟨0, none, none⟩

/-- An opening bracket at a position; the first one at the top starts the symbol. -/
def opened (b : Brackets) (pos : Nat) : Brackets :=
  { b with depth := b.depth + 1, first := if b.depth = 0 then b.first.or (some pos) else b.first }

/-- A closing bracket at a position; the first one back at the top ends the symbol. -/
def closed (b : Brackets) (pos : Nat) : Brackets :=
  { b with depth := b.depth - 1, last := if b.depth = 1 then b.last.or (some pos) else b.last }

/-- The first group, once it is complete. -/
def symbol (b : Brackets) : Option (Nat × Nat) := b.first.bind fun i => b.last.map (i, ·)

end Brackets

/-- How the front of a definition ends. -/
inductive Front where
  /-- With the parenthesis that opens the parameters; the code behind it follows. -/
  | paramList (pos : Nat) (symbol : Option (Nat × Nat)) (rest : List Spot)
  /-- With a colon. -/
  | colon (pos : Nat) (symbol : Option (Nat × Nat))
  /-- With the text, inside so many square brackets. -/
  | exhausted (depth : Nat)
  deriving Repr, DecidableEq

/-- Reads the front of a definition: square brackets are counted, a closing one only if one is
open, and what stands inside them belongs to them. -/
def front (b : Brackets) : List Spot → Front
  | [] => .exhausted b.depth
  | s :: rest =>
    if s.char = '[' then front (b.opened s.pos) rest
    else if s.char = ']' ∧ 0 < b.depth then front (b.closed s.pos) rest
    else if 0 < b.depth then front b rest
    else if s.char = '(' then .paramList s.pos b.symbol rest
    else if s.char = ':' then .colon s.pos b.symbol
    else front b rest

/-- The position after the parenthesis that closes the one which is open `depth + 1` deep. Only
parentheses are counted. -/
def paramsEnd (depth : Nat) : List Spot → Option Nat
  | [] => none
  | s :: rest =>
    if s.char = '(' then paramsEnd (depth + 1) rest
    else if s.char = ')' then
      match depth with
      | 0 => some (s.pos + 1)
      | depth + 1 => paramsEnd depth rest
    else paramsEnd depth rest

/-- Scans the source text of a definition. -/
def scanDefinition (text : List Char) : Except Fault Segments :=
  let l := lex text
  let failing (fault : Fault) : Except Fault Segments :=
    match l.unclosed with
    | some delimiter => .error (.unmatchedDelimiter delimiter)
    | none => .error fault
  match front .initial l.spots with
  | .paramList start symbol rest =>
    match paramsEnd 0 rest with
    | some stop => .ok (cut text start stop symbol false)
    | none => failing (.unmatchedDelimiter ['('])
  | .colon pos symbol =>
    if beginsWith classWord text then .ok (cut text pos pos symbol true)
    else .error .noParameterList
  | .exhausted depth =>
    failing (if 0 < depth then .unmatchedDelimiter ['['] else .noParameterList)

/-- Cuts a source text into its segments. -/
def scan (source : List Char) : Except Fault Segments :=
  let text := trim source
  if beginsWith lambdaWord text then scanLambda text else scanDefinition text

end Segments

end CallableKinds
