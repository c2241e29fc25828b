import ApiCensus.Number.Integer
import ApiCensus.Number.Rounding

/-!
# Written integers are read back

The numeral of an integer is a sign and ASCII digits.  Reading drops no part of it, and the
value of its digits is the integer.
-/

namespace ApiCensus

namespace Text

theorem decimalValue?_of_isDigit {c : Char} (digit : c.isDigit = true) :
    decimalValue? c = some (c.toNat - '0'.toNat) := by
  have bounds : 48 ≤ c.toNat ∧ c.toNat ≤ 57 := Char.isDigit_iff_toNat.mp digit
  have first : decimalZeros.find? (fun start => start ≤ c.toNat && c.toNat < start + 10) =
      some 0x30 := by
    apply List.find?_cons_of_pos
    simp only [Bool.and_eq_true, decide_eq_true_eq]
    omega
  rw [decimalValue?, first]
  rfl

theorem dropEndWhile_of_last {drop : Char → Bool} {chars : List Char} {last : Char}
    (keep : drop last = false) : dropEndWhile drop (chars ++ [last]) = chars ++ [last] := by
  rw [dropEndWhile, List.reverse_append, List.reverse_singleton, List.singleton_append,
    List.dropWhile_cons_of_neg (by simp [keep]), List.reverse_cons, List.reverse_reverse]

/-- Nothing is trimmed from characters that all stay. -/
theorem trimWhile_eq_self {drop : Char → Bool} {chars : List Char}
    (keep : ∀ c ∈ chars, drop c = false) : trimWhile drop chars = chars := by
  have started : chars.dropWhile drop = chars := by
    cases chars with
    | nil => rfl
    | cons first rest => exact List.dropWhile_cons_of_neg (by simp [keep first])
  rw [trimWhile, started]
  rcases List.eq_nil_or_concat chars with rfl | ⟨front, last, rfl⟩
  · rfl
  · rw [List.concat_eq_append] at keep ⊢
    exact dropEndWhile_of_last (keep last (by simp))

end Text

namespace Number

/-- The digits of an integer after its sign. -/
def numeral (number : Int) : List Char :=
  if number < 0 then '-' :: digits number.natAbs else digits number.natAbs

theorem toList_toString (number : Int) : (toString number).toList = numeral number := by
  cases number with
  | ofNat size =>
      have unsigned : ¬ Int.ofNat size < 0 := Int.not_lt.mpr (Int.natCast_nonneg size)
      rw [numeral, if_neg unsigned]
      exact Nat.toList_repr
  | negSucc size =>
      rw [numeral, if_pos (by omega)]
      simp [Int.toString_eq_repr, Int.repr, digits, Int.natAbs]

theorem isDigit_of_mem_digits {value : Nat} {c : Char} (member : c ∈ digits value) :
    c.isDigit = true :=
  Nat.isDigit_of_mem_toDigits (by decide) (by decide) member

theorem digits_ne_nil (value : Nat) : digits value ≠ [] :=
  Nat.toDigits_ne_nil

theorem length_digits_le {value count : Nat} (positive : 0 < count)
    (small : value < Nat.pow 10 count) : (digits value).length ≤ count :=
  (Nat.length_toDigits_le_iff (by decide) positive).mpr small

theorem mem_numeral {number : Int} {c : Char} (member : c ∈ numeral number) :
    c = '-' ∨ c.isDigit = true := by
  unfold numeral at member
  split at member
  · rcases List.mem_cons.mp member with sign | digit
    · exact .inl sign
    · exact .inr (isDigit_of_mem_digits digit)
  · exact .inr (isDigit_of_mem_digits member)

theorem length_numeral_le {number : Int} (small : number.natAbs < Nat.pow 10 maxDigits) :
    (numeral number).length ≤ maxDigits + 1 := by
  have short := length_digits_le (by decide) small
  unfold numeral
  split
  · exact Nat.succ_le_succ short
  · exact Nat.le_succ_of_le short

theorem not_isMargin_of_mem_numeral {number : Int} {c : Char} (member : c ∈ numeral number) :
    isMargin c = false := by
  rcases mem_numeral member with rfl | digit
  · rfl
  · have bounds : 48 ≤ c.toNat ∧ c.toNat ≤ 57 := Char.isDigit_iff_toNat.mp digit
    have visible : Text.isBlank c = false := by
      simp [Text.isBlank]
      omega
    rw [isMargin, visible, Bool.false_and]

theorem takeSign_numeral (number : Int) :
    takeSign (numeral number) = (decide (number < 0), digits number.natAbs) := by
  unfold numeral
  split
  · simp [takeSign, *]
  · rename_i unsigned
    have first : ∀ c rest, digits number.natAbs = c :: rest → c ≠ '-' ∧ c ≠ '+' := by
      intro c rest split
      have digit : c.isDigit = true :=
        isDigit_of_mem_digits (split ▸ List.mem_cons_self)
      constructor <;> (rintro rfl; cases digit)
    simp only [unsigned, decide_false]
    unfold takeSign
    split
    · exact absurd rfl (first _ _ ‹_›).1
    · exact absurd rfl (first _ _ ‹_›).2
    · rfl

theorem dropBaseMark_ten (chars : List Char) : dropBaseMark 10 chars = chars := by
  unfold dropBaseMark
  split
  · rfl
  · rfl

theorem digitIn?_ten_of_isDigit {c : Char} (digit : c.isDigit = true) :
    digitIn? 10 c = some (c.toNat - '0'.toNat) := by
  have bounds : 48 ≤ c.toNat ∧ c.toNat ≤ 57 := Char.isDigit_iff_toNat.mp digit
  have small : c.toNat - '0'.toNat < 10 := by
    change c.toNat - 48 < 10
    omega
  rw [digitIn?, Text.decimalValue?_of_isDigit digit]
  exact Option.filter_some_pos (decide_eq_true small)

/-- A run of digits is read to its end. -/
theorem digitRun_of_digits {chars : List Char} (allDigits : ∀ c ∈ chars, c.isDigit = true)
    (done : List Nat) :
    digitRun (digitIn? 10) true done chars =
      some (done.reverse ++ chars.map fun c => c.toNat - '0'.toNat, []) := by
  induction chars generalizing done with
  | nil => simp [digitRun]
  | cons c chars induction =>
      obtain ⟨digit, rest⟩ := List.forall_mem_cons.mp allDigits
      rw [digitRun, digitIn?_ten_of_isDigit digit]
      simp [induction rest]

theorem digitRun_digits (value : Nat) :
    digitRun (digitIn? 10) false [] (digits value) =
      some ((digits value).map fun c => c.toNat - '0'.toNat, []) := by
  have allDigits : ∀ c ∈ digits value, c.isDigit = true := fun c => isDigit_of_mem_digits
  obtain ⟨first, rest, split⟩ := List.exists_cons_of_ne_nil (digits_ne_nil value)
  rw [split] at allDigits ⊢
  obtain ⟨digit, others⟩ := List.forall_mem_cons.mp allDigits
  rw [digitRun, digitIn?_ten_of_isDigit digit]
  exact digitRun_of_digits others _

theorem ofDigits_digits (value : Nat) :
    ofDigits 10 ((digits value).map fun c => c.toNat - '0'.toNat) = value := by
  rw [ofDigits, List.foldl_map]
  exact Nat.ofDigitChars_ten_toDigits

/-- An integer that can be written is read back. -/
theorem readInteger_toString {number : Int} (small : number.natAbs < Nat.pow 10 maxDigits) :
    readInteger (toString number) = .ok number := by
  have fits : ¬ maxDigits < (digits number.natAbs).length :=
    Nat.not_lt.mpr (length_digits_le (by decide) small)
  unfold readInteger readIntegerIn
  rw [toList_toString, Text.trimWhile_eq_self fun c => not_isMargin_of_mem_numeral,
    takeSign_numeral]
  simp only [dropBaseMark_ten, digitRun_digits, ofDigits_digits, List.length_map, fits,
    decide_true, decide_false, Bool.and_false, Bool.false_eq_true, if_false, List.isEmpty_nil,
    if_true, decide_eq_true_eq, Except.ok.injEq]
  split <;> omega

theorem writeInteger_eq_ok_iff {number : Int} {text : String} :
    writeInteger number = .ok text ↔
      number.natAbs < Nat.pow 10 maxDigits ∧ toString number = text := by
  unfold writeInteger
  split
  · constructor
    · intro success
      cases success
      exact ⟨‹_›, rfl⟩
    · rintro ⟨_, rfl⟩
      rfl
  · constructor
    · intro impossible
      cases impossible
    · rintro ⟨small, _⟩
      contradiction

end Number

end ApiCensus
