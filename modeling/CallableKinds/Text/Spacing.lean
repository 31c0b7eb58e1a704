import CallableKinds.Text.Blank

/-!
# Spacing

Trimming, collapsing and indentation of text. `collapse` keeps the ends of a text and turns every
run of blanks inside it into one space, so cutting a text between runs and collapsing the parts is
the same as collapsing the whole. `dedent` moves a block of lines to the left margin.
-/

namespace CallableKinds

/-- The text without the longest end whose characters all satisfy `p`. -/
def dropRightWhile (p : Char → Bool) (s : List Char) : List Char :=
  (s.reverse.dropWhile p).reverse

/-- The text without the blanks at its start. -/
def trimLeft (s : List Char) : List Char := s.dropWhile isBlank

/-- The text without the blanks at its end. -/
def trimRight (s : List Char) : List Char := dropRightWhile isBlank s

/-- The text without the blanks at its ends. -/
def trim (s : List Char) : List Char := trimRight (trimLeft s)

/-- Every run of blanks becomes a single space; a run at an end of the text is kept as a space. -/
def collapse : List Char → List Char
  | [] => []
  | c :: rest =>
    if isBlank c then
      if rest.head?.any isBlank then collapse rest else ' ' :: collapse rest
    else c :: collapse rest

/-- The words of the text with one space between any two of them. -/
def squeeze (s : List Char) : List Char := trim (collapse s)

/-- The length that a cut at `width` leaves of a text: a negative width counts from the end. -/
def cutLength (width : Int) (length : Nat) : Nat :=
  if width < 0 then (length + width).toNat else width.toNat

/-- A text longer than `width` is cut there, and three dots mark the cut. -/
def abbreviate (width : Int) (s : List Char) : List Char :=
  if width < s.length then s.take (cutLength width s.length) ++ ['.', '.', '.'] else s

/-- The lines of a text: one more than it has newlines. -/
def lines : List Char → List (List Char)
  | [] => [[]]
  | c :: rest =>
    if c = '\n' then [] :: lines rest
    else
      match lines rest with
      | [] => [[c]]
      | line :: more => (c :: line) :: more

/-- Lines joined by newlines. -/
def unlines (ls : List (List Char)) : List Char := ['\n'].intercalate ls

/-- The spaces and tabs at the start of a line. -/
def indentOf (line : List Char) : List Char := line.takeWhile fun c => c == ' ' || c == '\t'

/-- The shortest text of a list, the first one of that length, or the empty text. -/
def shortest : List (List Char) → List Char
  | [] => []
  | [s] => s
  | s :: t :: rest =>
    let best := shortest (t :: rest)
    if best.length < s.length then best else s

/-- The margin of a block of lines is the shortest indentation of a line that is not empty. -/
def marginOf (ls : List (List Char)) : List Char :=
  shortest ((ls.filter fun line => !line.isEmpty).map indentOf)

/-- Moves a line to the left by the margin; a line that does not start with it loses all the
blanks at its start. -/
def shiftLeft (margin line : List Char) : List Char :=
  if margin.isPrefixOf line then line.drop margin.length else trimLeft line

/-- The block without the newlines and spaces that follow it and the newlines before it. -/
def trimBlock (s : List Char) : List Char :=
  (dropRightWhile (fun c => c == '\n' || c == ' ') s).dropWhile (· == '\n')

/-- Moves a block of lines to the left until its least indented line starts at the margin. Blanks
at the ends of its lines are dropped. -/
def dedent (s : List Char) : List Char :=
  let ls := (lines (trimBlock s)).map trimRight
  unlines (ls.map (shiftLeft (marginOf ls)))

@[simp] theorem collapse_nil : collapse [] = [] := rfl

theorem collapse_cons_of_not_blank {c : Char} (rest : List Char) (h : isBlank c = false) :
    collapse (c :: rest) = c :: collapse rest := by
  simp [collapse, h]

@[simp] theorem lines_ne_nil (s : List Char) : lines s ≠ [] := by
  cases s with
  | nil => simp [lines]
  | cons c rest =>
    unfold lines
    split
    · simp
    · split <;> simp

end CallableKinds
