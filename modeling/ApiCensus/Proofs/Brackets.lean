import ApiCensus.Text.Search

/-!
# Well-bracketed texts

The round, square and angle brackets of a text are nested properly and all closed.  A grammar says
what that means, and running through the text with a stack of the brackets that are yet to be
closed decides it.  A text that is put together from given texts, with fixed texts and pairs of
brackets around them, is well bracketed if the given ones are.
-/

namespace ApiCensus.Text

/-- The bracket that closes an opening one. -/
def closing? : Char → Option Char
  | '(' => some ')'
  | '[' => some ']'
  | '<' => some '>'
  | _ => none

/-- All brackets. -/
def brackets : List Char := ['(', ')', '[', ']', '<', '>']

/-- A text without brackets. -/
def Unbracketed (text : String) : Prop :=
  ∀ c ∈ text.toList, c ∉ brackets

-- Decided over the characters of the text, not over all characters.
instance (text : String) : Decidable (Unbracketed text) :=
  decidable_of_iff (text.toList.all fun c => decide (c ∉ brackets)) (by
    simp only [Unbracketed, List.all_eq_true, decide_eq_true_eq])

/-- Characters whose brackets are nested and closed. -/
inductive Bracketed : List Char → Prop
  | nil : Bracketed []
  | other {c : Char} {rest : List Char} (noBracket : c ∉ brackets) (after : Bracketed rest) :
      Bracketed (c :: rest)
  | group {opening closing : Char} {inner rest : List Char}
      (pair : closing? opening = some closing) (within : Bracketed inner)
      (after : Bracketed rest) : Bracketed (opening :: (inner ++ closing :: rest))

/-- A text whose brackets are nested and closed. -/
def WellBracketed (text : String) : Prop :=
  Bracketed text.toList

/-! ### Composition -/

namespace Bracketed

variable {left right : List Char}

theorem append (first : Bracketed left) (second : Bracketed right) : Bracketed (left ++ right) := by
  induction first with
  | nil => exact second
  | other noBracket _ induction => exact .other noBracket induction
  | group pair within _ _ induction =>
      rw [List.cons_append, List.append_assoc, List.cons_append]
      exact .group pair within induction

theorem of_noBracket {chars : List Char} (none : ∀ c ∈ chars, c ∉ brackets) : Bracketed chars := by
  induction chars with
  | nil => exact .nil
  | cons c rest induction =>
      obtain ⟨first, others⟩ := List.forall_mem_cons.mp none
      exact .other first (induction others)

theorem intercalate {separator : List Char} {parts : List (List Char)}
    (between : Bracketed separator) (each : ∀ part ∈ parts, Bracketed part) :
    Bracketed (separator.intercalate parts) := by
  induction parts with
  | nil => exact .nil
  | cons first others induction =>
      obtain ⟨start, later⟩ := List.forall_mem_cons.mp each
      cases others with
      | nil => simpa using start
      | cons second others =>
          rw [List.intercalate_cons_cons]
          exact (start.append between).append (induction later)

end Bracketed

namespace WellBracketed

variable {left right inner : String}

theorem append (first : WellBracketed left) (second : WellBracketed right) :
    WellBracketed (left ++ right) := by
  rw [WellBracketed, String.toList_append]
  exact Bracketed.append first second

theorem enclosed {opening closing : Char} (within : WellBracketed inner)
    (pair : closing? opening = some closing) (opens : left.toList = [opening])
    (closes : right.toList = [closing]) : WellBracketed (left ++ inner ++ right) := by
  rw [WellBracketed, String.toList_append, String.toList_append, opens, closes]
  exact .group pair within .nil

theorem intercalate {separator : String} {parts : List String}
    (between : WellBracketed separator) (each : ∀ part ∈ parts, WellBracketed part) :
    WellBracketed (separator.intercalate parts) := by
  rw [WellBracketed, String.toList_intercalate]
  apply Bracketed.intercalate between
  intro part member
  obtain ⟨text, listed, rfl⟩ := List.mem_map.mp member
  exact each text listed

theorem of_unbracketed (none : Unbracketed left) : WellBracketed left :=
  Bracketed.of_noBracket none

end WellBracketed

/-! ### Decision -/

/-- Whether the characters close the brackets that are pending, the innermost one first, and all
of their own. -/
def closes (pending : List Char) : List Char → Bool
  | [] => pending.isEmpty
  | c :: rest =>
      match closing? c with
      | some closing => closes (closing :: pending) rest
      | none =>
          if c ∈ brackets then pending.head? == some c && closes pending.tail rest
          else closes pending rest

variable {opening closing c : Char} {pending text : List Char}

theorem closing?_of_noBracket (noBracket : c ∉ brackets) : closing? c = none := by
  unfold closing?
  split
  · exact absurd (by decide) noBracket
  · exact absurd (by decide) noBracket
  · exact absurd (by decide) noBracket
  · rfl

theorem closing?_of_pair (pair : closing? opening = some closing) :
    closing? closing = none ∧ closing ∈ brackets := by
  unfold closing? at pair
  split at pair <;> cases pair <;> decide

/-- Nested and closed brackets leave the pending ones as they are. -/
theorem Bracketed.closes_append (bracketed : Bracketed text) (pending rest : List Char) :
    closes pending (text ++ rest) = closes pending rest := by
  induction bracketed generalizing pending rest with
  | nil => rfl
  | other noBracket _ induction =>
      rw [List.cons_append, closes, closing?_of_noBracket noBracket]
      simpa only [if_neg noBracket] using induction pending rest
  | group pair _ _ inside induction =>
      obtain ⟨noOpening, bracket⟩ := closing?_of_pair pair
      rw [List.cons_append, List.append_assoc, List.cons_append, closes, pair]
      dsimp only
      rw [inside, closes, noOpening]
      simpa [bracket] using induction pending rest

/-- The pending brackets are closed one after the other, with nested and closed brackets between
them. -/
inductive Completes : List Char → List Char → Prop
  | done {text : List Char} (bracketed : Bracketed text) : Completes [] text
  | close {expected : Char} {pending inner rest : List Char} (within : Bracketed inner)
      (later : Completes pending rest) : Completes (expected :: pending) (inner ++ expected :: rest)

theorem Completes.prepend {front rest : List Char} (bracketed : Bracketed front)
    (completes : Completes pending rest) : Completes pending (front ++ rest) := by
  cases completes with
  | done after => exact .done (bracketed.append after)
  | close within later =>
      rw [← List.append_assoc]
      exact .close (bracketed.append within) later

theorem completes_of_closes (success : closes pending text = true) : Completes pending text := by
  induction text generalizing pending with
  | nil =>
      obtain rfl : pending = [] := by simpa [closes] using success
      exact .done .nil
  | cons c rest induction =>
      rw [closes] at success
      cases opens : closing? c with
      | some closing =>
          rw [opens] at success
          cases induction success with
          | close within later =>
              simpa using later.prepend (.group opens within .nil)
      | none =>
          rw [opens] at success
          dsimp only at success
          split at success
          · obtain ⟨expected, later⟩ := Bool.and_eq_true_iff.mp success
            cases pending with
            | nil => cases expected
            | cons first pending =>
                obtain rfl : first = c := by simpa using expected
                exact .close .nil (induction later)
          · exact (induction success).prepend (.other ‹_› .nil)

theorem closes_iff : closes [] text = true ↔ Bracketed text := by
  constructor
  · intro success
    cases completes_of_closes success with
    | done bracketed => exact bracketed
  · intro bracketed
    simpa [closes] using bracketed.closes_append [] []

instance (text : String) : Decidable (WellBracketed text) :=
  decidable_of_iff (closes [] text.toList = true) closes_iff

example : WellBracketed "<[(); 2] as Into<_>>::X" := by decide

example : ¬ WellBracketed "<[(]; 2)>" := by decide

/-! ### Frames -/

/-- A text is made of the given texts, in their order, and of a frame around them that is nested
and closed by itself. -/
inductive Framed : List String → String → Prop
  | given (text : String) : Framed [text] text
  | fixed {text : String} (bracketed : WellBracketed text) : Framed [] text
  | append {given others : List String} {left right : String} (first : Framed given left)
      (second : Framed others right) : Framed (given ++ others) (left ++ right)
  | enclosed {opening closing : Char} {given : List String} {left inner right : String}
      (within : Framed given inner) (pair : closing? opening = some closing)
      (opens : left.toList = [opening]) (closes : right.toList = [closing]) :
      Framed given (left ++ inner ++ right)

/-- Several texts are made of the given texts, one after the other. -/
inductive FramedAll : List String → List String → Prop
  | nil : FramedAll [] []
  | cons {given others : List String} {part : String} {parts : List String}
      (first : Framed given part) (later : FramedAll others parts) :
      FramedAll (given ++ others) (part :: parts)

variable {given : List String} {whole : String}

namespace Framed

variable {front back : String}

theorem after (framed : Framed given whole) (bracketed : WellBracketed front) :
    Framed given (front ++ whole) :=
  (Framed.fixed bracketed).append framed

theorem before (framed : Framed given whole) (bracketed : WellBracketed back) :
    Framed given (whole ++ back) := by
  simpa using framed.append (.fixed bracketed)

theorem wellBracketed (framed : Framed given whole) (each : ∀ text ∈ given, WellBracketed text) :
    WellBracketed whole := by
  induction framed with
  | given text => exact each text List.mem_cons_self
  | fixed bracketed => exact bracketed
  | append _ _ first second =>
      obtain ⟨before, after⟩ := List.forall_mem_append.mp each
      exact (first before).append (second after)
  | enclosed _ pair opens closes within => exact (within each).enclosed pair opens closes

/-- The given texts stand in the whole. -/
theorem contains (framed : Framed given whole) {text : String} (member : text ∈ given) :
    Text.contains whole text = true := by
  rw [Text.contains, occurs_iff]
  induction framed with
  | given own =>
      obtain rfl := List.mem_singleton.mp member
      exact List.infix_refl _
  | fixed => cases member
  | append _ _ first second =>
      rw [String.toList_append]
      rcases List.mem_append.mp member with before | after
      · exact (first before).trans (List.prefix_append _ _).isInfix
      · exact (second after).trans (List.suffix_append _ _).isInfix
  | enclosed _ _ _ _ within =>
      rw [String.toList_append, String.toList_append]
      exact (within member).trans ⟨_, _, rfl⟩

end Framed

theorem FramedAll.intercalate {separator : String} {parts : List String}
    (between : WellBracketed separator) (framed : FramedAll given parts) :
    Framed given (separator.intercalate parts) := by
  induction framed with
  | nil => exact .fixed .nil
  | @cons own others part parts first later induction =>
      cases parts with
      | nil =>
          cases later
          rw [List.append_nil, String.intercalate_singleton]
          exact first
      | cons next parts =>
          rw [String.intercalate_cons_cons, String.append_assoc]
          exact first.append (induction.after between)

end ApiCensus.Text
