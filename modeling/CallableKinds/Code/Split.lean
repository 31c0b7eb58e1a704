import CallableKinds.Code.Lexed

/-!
# Splitting at the top level

A text is cut at the separators that stand outside of brackets, literals and comments.
-/

namespace CallableKinds

/-- The part of a text from `start` up to `stop`. -/
def slice (text : List Char) (start stop : Nat) : List Char := (text.drop start).take (stop - start)

/-- The positions of the separators, read at bracket depth `depth`. A bracket is never one, and a
separator that is not a single character does not occur. -/
def cuts (separator : List Char) (depth : Int) : List Spot → List Nat
  | [] => []
  | s :: rest =>
    if isOpening s.char then cuts separator (depth + 1) rest
    else if isClosing s.char then cuts separator (depth - 1) rest
    else if [s.char] = separator ∧ depth = 0 then s.pos :: cuts separator depth rest
    else cuts separator depth rest

/-- The parts of a text from `start` on between the given positions, without the characters there. -/
def partsBetween (text : List Char) (start : Nat) : List Nat → List (List Char)
  | [] => [text.drop start]
  | cut :: rest => slice text start cut :: partsBetween text (cut + 1) rest

/-- The parts of a text between its separators at the top level. -/
def splitTopLevel (text separator : List Char) : Except Fault (List (List Char)) := do
  let spots ← (lex text).complete
  return partsBetween text 0 (cuts separator 0 spots)

@[simp] theorem partsBetween_nil (text : List Char) (start : Nat) :
    partsBetween text start [] = [text.drop start] := rfl

end CallableKinds
