/-!
# Blank characters

The characters of Unicode's `White_Space` property, which separate words, surround annotations and
make up a line's margin.
-/

namespace Partials

/-- Blank characters, as Unicode's `White_Space` lists them: the ASCII controls from tab to carriage
return, the space, the next-line control and the space separators. -/
def isBlank (c : Char) : Bool :=
  let n := c.toNat
  (9 ≤ n && n ≤ 13) || n == 32 || n == 0x85 || n == 0xA0 || n == 0x1680 ||
    (0x2000 ≤ n && n ≤ 0x200A) || n == 0x2028 || n == 0x2029 || n == 0x202F || n == 0x205F ||
    n == 0x3000

theorem isBlank_newline : isBlank '\n' = true := rfl

end Partials
