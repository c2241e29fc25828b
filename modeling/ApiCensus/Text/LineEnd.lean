/-!
# Line ends
-/

namespace ApiCensus.Text

/-- All line ends as line feeds. -/
def unifyLineEnds : List Char → List Char
  | [] => []
  | '\r' :: '\n' :: rest => '\n' :: unifyLineEnds rest
  | '\r' :: rest => '\n' :: unifyLineEnds rest
  | c :: rest => c :: unifyLineEnds rest

end ApiCensus.Text
