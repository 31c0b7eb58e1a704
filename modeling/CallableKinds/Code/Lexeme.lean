import CallableKinds.Fault
import CallableKinds.Text.Word

/-!
# Lexemes

The three things that a source text is made of: string literals, comments and single code
characters. Literals and comments are the only places where brackets may stand unbalanced, so
nothing else of the language has to be known to step over them.
-/

namespace CallableKinds

/-- How many characters there are up to the end of the first occurrence of `delimiter`, or `none` if
it does not occur. A backslash takes the character after it out of the search. -/
def closing (delimiter : List Char) : List Char → Option Nat
  | [] => none
  | ['\\'] => none
  | '\\' :: _ :: rest => (closing delimiter rest).map (· + 2)
  | c :: rest =>
    if delimiter.isPrefixOf (c :: rest) then some delimiter.length
    else (closing delimiter rest).map (· + 1)

/-- The delimiter of the literal that `quote` opens: three quotes if two more follow. -/
def delimiterOf (quote : Char) (rest : List Char) : List Char :=
  if [quote, quote].isPrefixOf rest then [quote, quote, quote] else [quote]

/-- The length of the literal that `quote` opens before `rest`, or its delimiter if that is not
closed. -/
def literalLength (quote : Char) (rest : List Char) : Except (List Char) Nat :=
  let delimiter := delimiterOf quote rest
  match closing delimiter (rest.drop (delimiter.length - 1)) with
  | some n => .ok (delimiter.length + n)
  | none => .error delimiter

/-- The length of the text up to the end of its first line. -/
def lineLength (s : List Char) : Nat := (s.takeWhile (· != '\n')).length

/-- A quote that opens a string literal. -/
def isQuote (c : Char) : Bool := c == '\'' || c == '"'

/-- A bracket that opens a group. -/
def isOpening (c : Char) : Bool := c == '(' || c == '[' || c == '\x7b'

/-- A bracket that closes a group. -/
def isClosing (c : Char) : Bool := c == ')' || c == ']' || c == '\x7d'

/-- What stands at the start of a text. -/
inductive Lexeme where
  /-- A code character. -/
  | character
  /-- A string literal of so many characters. -/
  | literal (length : Nat)
  /-- A comment of so many characters; the newline after it is code. -/
  | comment (length : Nat)
  /-- A string literal that is not closed. -/
  | unclosed (delimiter : List Char)
  deriving Repr, DecidableEq

/-- The lexeme that begins with `c` before `rest`. -/
def lexeme (c : Char) (rest : List Char) : Lexeme :=
  if isQuote c then
    match literalLength c rest with
    | .ok n => .literal n
    | .error delimiter => .unclosed delimiter
  else if c == '#' then .comment (lineLength rest + 1)
  else .character

/-- The character before a position. -/
def charBefore (text : List Char) : Nat → Option Char
  | 0 => none
  | i + 1 => text[i]?

/-- Whether `keyword` starts `text` as a whole word, where `before` is the character in front. -/
def startsWord (keyword : List Char) (before : Option Char) (text : List Char) : Bool :=
  keyword.isPrefixOf text && !before.any isWord && !(text.drop keyword.length).head?.any isWord

/-- Whether `keyword` stands at `index` as a whole word. -/
def isWordAt (text : List Char) (index : Nat) (keyword : List Char) : Bool :=
  decide (index ≤ text.length) && startsWord keyword (charBefore text index) (text.drop index)

/-- The position after the literal whose opening quote, which may be any character, is at `index`. -/
def literalEnd (text : List Char) (index : Nat) : Except Fault Nat :=
  match text.drop index with
  | [] => .error .pastEnd
  | c :: rest =>
    match literalLength c rest with
    | .ok n => .ok (index + n)
    | .error delimiter => .error (.unmatchedDelimiter delimiter)

/-- The position of the newline that ends the comment at `index`, or the end of the text. -/
def commentEnd (text : List Char) (index : Nat) : Nat :=
  min index text.length + lineLength (text.drop index)

/-- The position after the literal or comment at `index`, if there is one. -/
def lexemeEnd (text : List Char) (index : Nat) : Except Fault (Option Nat) :=
  match text.drop index with
  | [] => .error .pastEnd
  | c :: rest =>
    match lexeme c rest with
    | .character => .ok none
    | .literal n => .ok (some (index + n))
    | .comment n => .ok (some (index + n))
    | .unclosed delimiter => .error (.unmatchedDelimiter delimiter)

end CallableKinds
