/-!
# Blank characters

White space of every script, as it is trimmed from names, documentation and
table cells.  The zero-width space and the zero-width joiners are not blank.
-/

namespace ApiCensus.Text

/-- White space of any script, the four ASCII information separators
(U+001C to U+001F) included. -/
def isBlank (c : Char) : Bool :=
  let code := c.toNat
  (9 ≤ code && code ≤ 13) || (28 ≤ code && code ≤ 32) || code == 0x85 ||
    code == 0xa0 || code == 0x1680 || (0x2000 ≤ code && code ≤ 0x200a) ||
    code == 0x2028 || code == 0x2029 || code == 0x202f || code == 0x205f ||
    code == 0x3000

/-- Drop the trailing characters that satisfy `drop`. -/
def dropEndWhile (drop : Char → Bool) (chars : List Char) : List Char :=
  (chars.reverse.dropWhile drop).reverse

/-- Drop the characters that satisfy `drop` on both ends. -/
def trimWhile (drop : Char → Bool) (chars : List Char) : List Char :=
  dropEndWhile drop (chars.dropWhile drop)

/-- The text without blanks on either end. -/
def trim (text : String) : String :=
  String.ofList (trimWhile isBlank text.toList)

/-- The text without blanks at its end. -/
def trimEnd (text : String) : String :=
  String.ofList (dropEndWhile isBlank text.toList)

end ApiCensus.Text
