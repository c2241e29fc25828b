/-!
# Digits of every script

A decimal digit belongs to a run of ten consecutive code points that starts
with its zero.  Superscript, circled and similar digits are digits too, but no
numeral can be written with them.
-/

namespace ApiCensus.Text

/-- The code points of the zeros of all scripts, in ascending order. -/
def decimalZeros : List Nat :=
  [0x30, 0x660, 0x6f0, 0x7c0, 0x966, 0x9e6, 0xa66, 0xae6, 0xb66, 0xbe6, 0xc66, 0xce6, 0xd66,
  0xde6, 0xe50, 0xed0, 0xf20, 0x1040, 0x1090, 0x17e0, 0x1810, 0x1946, 0x19d0, 0x1a80,
  0x1a90, 0x1b50, 0x1bb0, 0x1c40, 0x1c50, 0xa620, 0xa8d0, 0xa900, 0xa9d0, 0xa9f0, 0xaa50,
  0xabf0, 0xff10, 0x104a0, 0x10d30, 0x11066, 0x110f0, 0x11136, 0x111d0, 0x112f0, 0x11450,
  0x114d0, 0x11650, 0x116c0, 0x11730, 0x118e0, 0x11950, 0x11c50, 0x11d50, 0x11da0, 0x16a60,
  0x16ac0, 0x16b50, 0x1d7ce, 0x1d7d8, 0x1d7e2, 0x1d7ec, 0x1d7f6, 0x1e140, 0x1e2f0, 0x1e950,
  0x1fbf0]

/-- The digits that are not decimal digits, as closed ranges of code points. -/
def otherDigits : List (Nat × Nat) :=
  [(178, 179), (185, 185), (4969, 4977), (6618, 6618), (8304, 8304), (8308, 8313),
  (8320, 8329), (9312, 9320), (9332, 9340), (9352, 9360), (9450, 9450), (9461, 9469),
  (9471, 9471), (10102, 10110), (10112, 10120), (10122, 10130), (68160, 68163),
  (69216, 69224), (69714, 69722), (127232, 127242)]

/-- The value of a decimal digit of any script. -/
def decimalValue? (c : Char) : Option Nat :=
  let code := c.toNat
  (decimalZeros.find? fun start => start ≤ code && code < start + 10).map (code - ·)

/-- A digit of any script, decimal or not. -/
def isDigit (c : Char) : Bool :=
  (decimalValue? c).isSome ||
    otherDigits.any fun (low, high) => low ≤ c.toNat && c.toNat ≤ high

/-- A text that is not empty and holds digits only. -/
def isNumeral (text : String) : Bool :=
  !text.isEmpty && text.toList.all isDigit

end ApiCensus.Text
