import CallableKinds.Code.Lexeme

/-!
# Lexed text

A text cut into its lexemes from a position on. A `Lexed` holds the pieces up to the end of the text
or up to a literal that is not closed. Whoever needs only a part of the text may stop before that
literal; `Lexed.finish` is for the reader who came to the end of the pieces.

A code character is kept with its surroundings (`Spot`), so that the tests for whole words and for
continued lines look at one spot.
-/

namespace CallableKinds

/-- A code character at its place. -/
structure Spot where
  pos : Nat
  /-- The character in front, also when it belongs to a literal or a comment. -/
  before : Option Char
  char : Char
  /-- The text behind. -/
  after : List Char
  deriving Repr, DecidableEq

namespace Spot

/-- Whether a keyword starts here as a whole word. -/
def startsWord (s : Spot) (keyword : List Char) : Bool :=
  CallableKinds.startsWord keyword s.before (s.char :: s.after)

/-- Whether this is a newline that no backslash joins to the next line. -/
def endsLine (s : Spot) : Bool := s.char == '\n' && s.before != some '\\'

end Spot

/-- A lexeme at its place. -/
inductive Piece where
  | code (spot : Spot)
  | literal (pos length : Nat)
  | comment (pos length : Nat)
  deriving Repr, DecidableEq

namespace Piece

/-- The code character of a piece. -/
def spot? : Piece → Option Spot
  | code spot => some spot
  | _ => none

/-- The position of a comment. -/
def comment? : Piece → Option Nat
  | comment pos _ => some pos
  | _ => none

end Piece

/-- The pieces of a text, and the delimiter of the literal that is not closed if they end before
the text does. -/
structure Lexed where
  pieces : List Piece
  unclosed : Option (List Char)
  deriving Repr, DecidableEq

namespace Lexed

/-- The code characters in order. -/
def spots (l : Lexed) : List Spot := l.pieces.filterMap Piece.spot?

/-- The position of the first comment. -/
def firstComment? (l : Lexed) : Option Nat := l.pieces.findSome? Piece.comment?

/-- What a reader gets that found nothing in the pieces: the default if the text is at its end, and
an error if a literal is not closed. -/
def finish (l : Lexed) (default : α) : Except Fault α :=
  match l.unclosed with
  | none => .ok default
  | some delimiter => .error (.unmatchedDelimiter delimiter)

/-- What a reader gets that may have found something in the pieces. -/
def found (l : Lexed) (result : Option α) (default : α) : Except Fault α :=
  match result with
  | some a => .ok a
  | none => l.finish default

/-- The code characters of a text that is lexed to its end. -/
def complete (l : Lexed) : Except Fault (List Spot) := l.finish l.spots

/-- The pieces with one more in front. -/
def cons (p : Piece) (l : Lexed) : Lexed := { l with pieces := p :: l.pieces }

@[simp] theorem pieces_cons (p : Piece) (l : Lexed) : (l.cons p).pieces = p :: l.pieces := rfl

@[simp] theorem unclosed_cons (p : Piece) (l : Lexed) : (l.cons p).unclosed = l.unclosed := rfl

@[simp] theorem spots_cons_code (s : Spot) (l : Lexed) :
    (l.cons (.code s)).spots = s :: l.spots := rfl

@[simp] theorem spots_cons_literal (pos length : Nat) (l : Lexed) :
    (l.cons (.literal pos length)).spots = l.spots := rfl

@[simp] theorem spots_cons_comment (pos length : Nat) (l : Lexed) :
    (l.cons (.comment pos length)).spots = l.spots := rfl

end Lexed

/-- Cuts a text into pieces. The first `skip` characters belong to the piece before; `pos` is the
position of the text and `before` the character in front of it. -/
def lexFrom : (skip pos : Nat) → (before : Option Char) → List Char → Lexed
  | _, _, _, [] => ⟨[], none⟩
  | skip + 1, pos, _, c :: rest => lexFrom skip (pos + 1) (some c) rest
  | 0, pos, before, c :: rest =>
    match lexeme c rest with
    | .character => (lexFrom 0 (pos + 1) (some c) rest).cons (.code ⟨pos, before, c, rest⟩)
    | .literal n => (lexFrom (n - 1) (pos + 1) (some c) rest).cons (.literal pos n)
    | .comment n => (lexFrom (n - 1) (pos + 1) (some c) rest).cons (.comment pos n)
    | .unclosed delimiter => ⟨[], some delimiter⟩

/-- The pieces of a text from a position on. -/
def lexAt (text : List Char) (start : Nat) : Lexed :=
  lexFrom 0 start (charBefore text start) (text.drop start)

/-- The pieces of a text. -/
def lex (text : List Char) : Lexed := lexFrom 0 0 none text

@[simp] theorem lexAt_zero (text : List Char) : lexAt text 0 = lex text := rfl

end CallableKinds
