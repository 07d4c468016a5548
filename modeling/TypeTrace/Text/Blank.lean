/-!
# White space

The characters with the Unicode property `White_Space`, and trimming by them.
The set is larger than the five blanks that `Char.isWhitespace` knows: it has
the vertical tab, the form feed, the no-break space and the spaces and
separators of the general punctuation block.
-/

namespace TypeTrace.Text

/-- Is the character white space? -/
def isBlank (c : Char) : Bool :=
  let n := c.toNat
  (0x09 ≤ n && n ≤ 0x0d) || n == 0x20 || n == 0x85 || n == 0xa0 || n == 0x1680 ||
    (0x2000 ≤ n && n ≤ 0x200a) || n == 0x2028 || n == 0x2029 || n == 0x202f ||
    n == 0x205f || n == 0x3000

/-- The text without the white space at its start. -/
def trimLeft (cs : List Char) : List Char := cs.dropWhile isBlank

/-- The text without the white space at its two ends. -/
def trim (cs : List Char) : List Char := (trimLeft (trimLeft cs).reverse).reverse

end TypeTrace.Text
