/-!
# Blank characters and trimming

White space around the pieces of a signature is ignored.  What counts as white
space is the Unicode property `White_Space`: twenty-five code points, of which
only six are ASCII.  Core's `Char.isWhitespace` knows the ASCII ones less two,
so the property is spelled out here once.

Trimming works on lists of characters, where it is a `dropWhile` from either
end.
-/

namespace NativeLink.Text

/-- Whether a character has the Unicode property `White_Space`. -/
def isBlank (c : Char) : Bool :=
  let n := c.toNat
  (0x09 ≤ n && n ≤ 0x0D) || n == 0x20 || n == 0x85 || n == 0xA0 || n == 0x1680 ||
    (0x2000 ≤ n && n ≤ 0x200A) || n == 0x2028 || n == 0x2029 || n == 0x202F ||
    n == 0x205F || n == 0x3000

/-- The text without the blanks it starts with. -/
def trimStart (t : List Char) : List Char := t.dropWhile isBlank

/-- The text without the blanks it ends with. -/
def trimEnd (t : List Char) : List Char := (t.reverse.dropWhile isBlank).reverse

/-- The text without the blanks around it. -/
def trim (t : List Char) : List Char := trimEnd (trimStart t)

@[simp] theorem trim_nil : trim [] = [] := rfl

end NativeLink.Text
