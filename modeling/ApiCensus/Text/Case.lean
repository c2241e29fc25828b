/-!
# Lower case for comparing with ASCII words

Tags, groupings and presentations are recognised in any case.  The words they
are compared with are ASCII, so a case map is needed only for the characters
whose lower case is an ASCII character: the ASCII capitals and the Kelvin sign.
-/

namespace ApiCensus.Text

/-- Lower case, for the characters whose lower case is an ASCII character. -/
def lowerChar (c : Char) : Char :=
  if c = '\u212a' then 'k' else c.toLower

/-- Lower case of a text that is to be compared with an ASCII word. -/
def lower (text : String) : String :=
  String.ofList (text.toList.map lowerChar)

end ApiCensus.Text
