import ApiCensus.Text.Hex
import ApiCensus.Text.Printable

/-!
# Quoted text

The form in which a text is shown inside a message or inside the text of a
list: between quotes, with the quote, the backslash and every unprintable
character escaped.  Single quotes are used unless the text holds a single quote
and no double quote.
-/

namespace ApiCensus.Text

/-- The quote to put around a text. -/
def quoteFor (chars : List Char) : Char :=
  if chars.contains '\'' && !chars.contains '"' then '"' else '\''

/-- An unprintable character as the shortest of the three hexadecimal escapes. -/
def escapeCode (code : Nat) : List Char :=
  if code < 0x100 then '\\' :: 'x' :: hexDigits 2 code
  else if code < 0x10000 then '\\' :: 'u' :: hexDigits 4 code
  else '\\' :: 'U' :: hexDigits 8 code

/-- One character of a quoted text. -/
def quoteChar (quote c : Char) : List Char :=
  if c = quote || c = '\\' then ['\\', c]
  else if c = '\n' then ['\\', 'n']
  else if c = '\r' then ['\\', 'r']
  else if c = '\t' then ['\\', 't']
  else if isPrintable c then [c]
  else escapeCode c.toNat

/-- The text between quotes, with escapes. -/
def quoted (text : String) : String :=
  let chars := text.toList
  let quote := quoteFor chars
  String.ofList (quote :: chars.flatMap (quoteChar quote) ++ [quote])

end ApiCensus.Text
