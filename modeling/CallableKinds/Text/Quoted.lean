import CallableKinds.Text.Assigned
import CallableKinds.Text.Blank

/-!
# Quoted text

The written form of a text between quotes. The quote is `'`, unless the text has that quote and not
the other one. Inside, a backslash stands before a backslash and before the chosen quote, so the
first quote that no backslash precedes is the closing one.
-/

namespace CallableKinds

/-- Format characters, which have no shape of their own, first and last code point. -/
def formatRanges : List (Nat × Nat) := [
  (0xAD, 0xAD), (0x600, 0x605), (0x61C, 0x61C), (0x6DD, 0x6DD), (0x70F, 0x70F), (0x890, 0x891),
  (0x8E2, 0x8E2), (0x180E, 0x180E), (0x200B, 0x200F), (0x202A, 0x202E), (0x2060, 0x2064),
  (0x2066, 0x206F), (0xFEFF, 0xFEFF), (0xFFF9, 0xFFFB), (0x110BD, 0x110BD), (0x110CD, 0x110CD),
  (0x13430, 0x13438), (0x1BCA0, 0x1BCA3), (0x1D173, 0x1D17A), (0xE0001, 0xE0001),
  (0xE0020, 0xE007F)]

/-- A character that can be shown as it is: an assigned one that is no control character, no format
character and no blank other than the space. -/
def isPrintable (c : Char) : Bool :=
  let n := c.toNat
  c == ' ' ||
    (0x20 ≤ n && !(0x7F ≤ n && n ≤ 0x9F) && !isBlank c &&
      !(formatRanges.any fun r => r.1 ≤ n && n ≤ r.2) && isAssigned c)

/-- The lowest `width` hexadecimal digits of `n`. -/
def hexDigits : (width n : Nat) → List Char
  | 0, _ => []
  | width + 1, n => hexDigits width (n / 16) ++ [Nat.digitChar (n % 16)]

/-- How one character is written between quotes. -/
def quoteChar (delimiter c : Char) : List Char :=
  if c = delimiter ∨ c = '\\' then ['\\', c]
  else if c = '\n' then ['\\', 'n']
  else if c = '\r' then ['\\', 'r']
  else if c = '\t' then ['\\', 't']
  else if isPrintable c then [c]
  else if c.toNat < 0x100 then '\\' :: 'x' :: hexDigits 2 c.toNat
  else if c.toNat < 0x10000 then '\\' :: 'u' :: hexDigits 4 c.toNat
  else '\\' :: 'U' :: hexDigits 8 c.toNat

/-- The quote that a text is written with. -/
def quoteFor (s : List Char) : Char :=
  if s.contains '\'' && !s.contains '"' then '"' else '\''

/-- The written form of a text. -/
def quote (s : List Char) : List Char :=
  quoteFor s :: (s.flatMap (quoteChar (quoteFor s)) ++ [quoteFor s])

/-- The written form of a string. -/
def quoteString (s : String) : String := String.ofList (quote s.toList)

theorem quoteFor_eq (s : List Char) : quoteFor s = '\'' ∨ quoteFor s = '"' := by
  unfold quoteFor
  split <;> simp

end CallableKinds
