/-!
# Blank characters

The characters that separate words and may be trimmed from the ends of a text: the white space of
Unicode and the four information separators. The zero width space and the byte order mark are not
among them.
-/

namespace CallableKinds

/-- A blank separates words and disappears when a text is trimmed. -/
def isBlank (c : Char) : Bool :=
  let n := c.toNat
  (0x09 ≤ n && n ≤ 0x0D) || (0x1C ≤ n && n ≤ 0x20) || n == 0x85 || n == 0xA0 || n == 0x1680 ||
    (0x2000 ≤ n && n ≤ 0x200A) || n == 0x2028 || n == 0x2029 || n == 0x202F || n == 0x205F ||
    n == 0x3000

@[simp] theorem isBlank_space : isBlank ' ' = true := by decide

@[simp] theorem isBlank_newline : isBlank '\n' = true := by decide

end CallableKinds
