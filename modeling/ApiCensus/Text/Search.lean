/-!
# Searching and replacing in texts

Occurrence of one text in another, and splitting at a character.
-/

namespace ApiCensus.Text

/-- Whether `needle` stands somewhere in the characters. -/
def occurs (needle : List Char) : List Char → Bool
  | [] => needle.isEmpty
  | c :: rest => needle.isPrefixOf (c :: rest) || occurs needle rest

/-- Whether a text stands somewhere in another one. -/
def contains (text needle : String) : Bool :=
  occurs needle.toList text.toList

/-- The pieces between the occurrences of a character; there is one piece more
than occurrences. -/
def splitAt (divider : Char) : List Char → List (List Char)
  | [] => [[]]
  | c :: rest =>
      let pieces := splitAt divider rest
      if c = divider then [] :: pieces
      else
        match pieces with
        | [] => [[c]]
        | first :: more => (c :: first) :: more

theorem occurs_iff {needle chars : List Char} :
    occurs needle chars = true ↔ needle <:+: chars := by
  induction chars with
  | nil => simp [occurs]
  | cons c rest ih =>
      simp only [occurs, Bool.or_eq_true, List.isPrefixOf_iff_prefix, ih, List.infix_cons_iff]

end ApiCensus.Text
