import ApiCensus.Proofs.ReportReadBack
import Mathlib.Data.Rat.Lemmas

/-!
# Written ratios

Before its point a double-precision number has at most 309 digits, so that a ratio with few
decimal places is always short enough to be read.  A ratio of counts below `10 ^ 290` does not
overflow, and a row with such counts can be written.
-/

namespace ApiCensus

theorem Number.roundDiv_le {num den bound : Nat} (positive : 0 < den)
    (bounded : num ≤ bound * den) : roundDiv num den ≤ bound := by
  obtain ⟨_, above⟩ := two_mul_roundDiv_bounds num positive
  by_contra larger
  have step : 2 * den * (bound + 1) ≤ 2 * den * roundDiv num den :=
    Nat.mul_le_mul_left _ (by omega)
  have spread : 2 * den * (bound + 1) = 2 * (bound * den) + 2 * den := by
    rw [Nat.mul_add, Nat.mul_one, Nat.mul_assoc, Nat.mul_comm den bound]
  omega

namespace Binary64

theorem binaryMagnitude_bounds (num den : Nat) :
    (num.log2 : Int) - den.log2 - 1 ≤ binaryMagnitude num den ∧
      binaryMagnitude num den ≤ (num.log2 : Int) - den.log2 := by
  unfold binaryMagnitude
  dsimp only
  split <;> omega

/-- Scaled by an exponent not far below its magnitude, a quotient is small. -/
theorem scaled_le {num den : Nat} (positive : 0 < den) {exponent : Int}
    (large : (num.log2 : Int) - den.log2 - 53 ≤ exponent) :
    num * (powerOfTwo exponent).2 ≤ Nat.pow 2 54 * (den * (powerOfTwo exponent).1) := by
  have above : num ≤ Nat.pow 2 (num.log2 + 1) := Nat.le_of_lt Nat.lt_log2_self
  have below : Nat.pow 2 den.log2 ≤ den := Nat.log2_self_le (by omega)
  have exponents : num.log2 + 1 + (-exponent).toNat ≤ 54 + (den.log2 + exponent.toNat) := by omega
  calc num * Nat.pow 2 (-exponent).toNat
      ≤ Nat.pow 2 (num.log2 + 1) * Nat.pow 2 (-exponent).toNat := Nat.mul_le_mul_right _ above
    _ = Nat.pow 2 (num.log2 + 1 + (-exponent).toNat) := (Nat.pow_add ..).symm
    _ ≤ Nat.pow 2 (54 + (den.log2 + exponent.toNat)) := Nat.pow_le_pow_right (by decide) exponents
    _ = Nat.pow 2 54 * Nat.pow 2 (den.log2 + exponent.toNat) := Nat.pow_add ..
    _ = Nat.pow 2 54 * (Nat.pow 2 den.log2 * Nat.pow 2 exponent.toNat) :=
        congrArg (Nat.pow 2 54 * ·) (Nat.pow_add ..)
    _ ≤ Nat.pow 2 54 * (den * Nat.pow 2 exponent.toNat) :=
        Nat.mul_le_mul_left _ (Nat.mul_le_mul_right _ below)

/-- The mantissa and the exponent of the nearest number, unless that is too large. -/
theorem nearest_eq (negative : Bool) (num : Nat) {den : Nat} (positive : 0 < den) :
    ∃ mantissa exponent, mantissa ≤ Nat.pow 2 54 ∧ exponent ≤ (num.log2 : Int) ∧
      nearest negative num den =
        if exponent > greatestExponent then .infinite negative
        else .finite negative mantissa exponent := by
  obtain ⟨below, above⟩ := binaryMagnitude_bounds num den
  by_cases none : num = 0
  · refine ⟨0, leastExponent, by decide, ?_, ?_⟩
    · unfold leastExponent
      omega
    · rw [nearest, if_pos none]
      rfl
  · have exponentLe : max (binaryMagnitude num den - 52) leastExponent + 1 ≤ (num.log2 : Int) := by
      unfold leastExponent
      omega
    have rounded := Number.roundDiv_le
      (Nat.mul_pos positive (Nat.pow_pos (by decide)))
      (@scaled_le num den positive (max (binaryMagnitude num den - 52) leastExponent) (by omega))
    rw [nearest, if_neg none]
    dsimp only
    split
    · exact ⟨mantissaBound / 2, _, by decide, exponentLe, rfl⟩
    · exact ⟨_, _, rounded, by omega, rfl⟩

theorem log2_le_of_lt {num count : Nat} (small : num < Nat.pow 2 (count + 1)) :
    num.log2 ≤ count := by
  by_cases none : num = 0
  · rw [none]
    exact Nat.zero_le count
  · exact Nat.lt_succ_iff.mp ((Nat.log2_lt none).mpr small)

theorem nearest_of_small (negative : Bool) {num den : Nat} (positive : 0 < den)
    (small : num < Nat.pow 2 (greatestExponent.toNat + 1)) :
    ∃ mantissa exponent, nearest negative num den = .finite negative mantissa exponent := by
  obtain ⟨mantissa, exponent, _, exponentLe, same⟩ := nearest_eq negative num positive
  have magnitude := log2_le_of_lt small
  have bounded : ¬ exponent > greatestExponent := by
    unfold greatestExponent at magnitude ⊢
    omega
  rw [if_neg bounded] at same
  exact ⟨mantissa, exponent, same⟩

theorem length_pointed_le {places value count : Nat}
    (short : (Number.digits value).length ≤ count) (more : places < count) :
    (pointed places value).length ≤ count + 1 := by
  unfold pointed
  dsimp only
  split
  · simp
    omega
  · simp
    omega

/-- The number of digits that the largest numbers have before the point. -/
def wholeDigits : Nat := 309

theorem largest_lt : Nat.pow 2 (54 + greatestExponent.toNat) < Nat.pow 10 wholeDigits := by
  decide +kernel

theorem shifted_lt {mantissa power greatest whole : Nat} (small : mantissa ≤ Nat.pow 2 54)
    (bounded : power ≤ greatest) (largest : Nat.pow 2 (54 + greatest) < Nat.pow 10 whole)
    (places : Nat) :
    mantissa * Nat.pow 2 power * Nat.pow 10 places < Nat.pow 10 (whole + places) := by
  have numerator : mantissa * Nat.pow 2 power < Nat.pow 10 whole := by
    have powers : Nat.pow 2 power ≤ Nat.pow 2 greatest :=
      Nat.pow_le_pow_right (by decide) bounded
    calc mantissa * Nat.pow 2 power ≤ Nat.pow 2 54 * Nat.pow 2 greatest :=
          Nat.mul_le_mul small powers
      _ = Nat.pow 2 (54 + greatest) := (Nat.pow_add ..).symm
      _ < Nat.pow 10 whole := largest
  calc mantissa * Nat.pow 2 power * Nat.pow 10 places < Nat.pow 10 whole * Nat.pow 10 places :=
        Nat.mul_lt_mul_of_pos_right numerator (Nat.pow_pos (by decide))
    _ = Nat.pow 10 (whole + places) := (Nat.pow_add ..).symm

theorem length_fixed_le (places : Nat) (negative : Bool) {mantissa : Nat} {exponent : Int}
    (small : mantissa ≤ Nat.pow 2 54) (bounded : exponent ≤ greatestExponent) :
    (fixed places (.finite negative mantissa exponent)).length ≤ places + wholeDigits + 2 := by
  have size := shifted_lt small (Int.toNat_le_toNat bounded) largest_lt places
  have rounded : Number.roundDiv (mantissa * Nat.pow 2 exponent.toNat * Nat.pow 10 places)
      (Nat.pow 2 (-exponent).toNat) < Nat.pow 10 (wholeDigits + places) := by
    have positive : 0 < Nat.pow 2 (-exponent).toNat := Nat.pow_pos (by decide)
    exact Nat.lt_of_le_of_lt
      (Number.roundDiv_le positive (Nat.le_mul_of_pos_right _ positive)) size
  have digits : 0 < wholeDigits := by decide
  have body := length_pointed_le (Number.length_digits_le (by omega) rounded)
    (show places < wholeDigits + places by omega)
  cases negative with
  | true =>
      simp only [fixed, ratio, powerOfTwo, if_true, String.length_ofList, List.length_cons]
      omega
  | false =>
      simp only [fixed, ratio, powerOfTwo, Bool.false_eq_true, if_false, String.length_ofList]
      omega

end Binary64

theorem Metrics.natAbs_num_ratio_le (part whole : Int) :
    (ratio part whole).num.natAbs ≤ part.natAbs := by
  unfold ratio
  split
  · simp
  · rename_i positive
    by_cases none : part = 0
    · simp [none]
    · have divides : ((part : Rat) / (whole : Rat)).num ∣ part := by
        rw [← Rat.divInt_eq_div]
        exact Rat.num_dvd part positive
      exact Nat.le_of_dvd (Int.natAbs_pos.mpr none) (Int.natAbs_dvd_natAbs.mpr divides)

namespace Report

variable {grouping : Grouping} {precision : Int} {count : Nat} {row : Row} {value : Rat}

theorem nearestDouble_of_small
    (small : value.num.natAbs < Nat.pow 2 (Binary64.greatestExponent.toNat + 1)) :
    ∃ number, nearestDouble value = .ok number := by
  obtain ⟨mantissa, exponent, same⟩ :=
    Binary64.nearest_of_small (value.num < 0) value.den_pos small
  unfold nearestDouble
  rw [same]
  exact ⟨_, rfl⟩

/-- A ratio that does not overflow is a finite number. -/
theorem of_nearestDouble_eq_ok {number : Binary64} (success : nearestDouble value = .ok number) :
    ∃ negative mantissa exponent, number = .finite negative mantissa exponent ∧
      mantissa ≤ Nat.pow 2 54 ∧ exponent ≤ Binary64.greatestExponent := by
  obtain ⟨mantissa, exponent, small, _, same⟩ :=
    Binary64.nearest_eq (value.num < 0) value.num.natAbs value.den_pos
  unfold nearestDouble at success
  rw [same] at success
  by_cases infinite : exponent > Binary64.greatestExponent
  · rw [if_pos infinite] at success
    cases success
  · rw [if_neg infinite] at success
    exact ⟨_, mantissa, exponent, (Except.ok.inj success).symm, small, Int.not_lt.mp infinite⟩

theorem formatRatio_eq_ok_iff (asked : places precision = .ok count) {text : String} :
    formatRatio precision value = .ok text ↔
      ∃ number, nearestDouble value = .ok number ∧ number.fixed count = text := by
  unfold formatRatio
  rw [Outcome.bind_eq_ok_iff, asked]
  simp only [bind, Except.bind, pure, Except.pure, Except.ok.injEq]

theorem length_formatRatio_le (asked : places precision = .ok count) {text : String}
    (formatted : formatRatio precision value = .ok text) :
    text.length ≤ count + Binary64.wholeDigits + 2 := by
  obtain ⟨number, numberOk, rfl⟩ := (formatRatio_eq_ok_iff asked).mp formatted
  obtain ⟨negative, mantissa, exponent, rfl, small, bounded⟩ := of_nearestDouble_eq_ok numberOk
  exact Binary64.length_fixed_le count negative small bounded

/-- With few decimal places every ratio fits. -/
theorem ratiosFit_of_places (asked : places precision = .ok count)
    (few : count + Binary64.wholeDigits + 2 ≤ Csv.fieldLimit) (row : Row) :
    RatiosFit precision row := by
  intro column inside text formatted
  exact Nat.le_trans (length_formatRatio_le asked formatted) few

/-! ### Rows that can be written -/

/-- All counts can be written, and no ratio overflows. -/
def Expressible (metrics : Metrics) : Prop :=
  Countable metrics ∧
    ∀ column ∈ Metrics.ratioColumns, ∃ number, nearestDouble (column.2 metrics) = .ok number

theorem exists_cells_iff (grouping : Grouping) (asked : places precision = .ok count) :
    (∃ record, cells grouping precision row = .ok record) ↔ Expressible row.metrics := by
  constructor
  · rintro ⟨record, written⟩
    obtain ⟨countable, ratios, formatted, _⟩ := cells_eq_ok_iff.mp written
    refine ⟨countable, fun column inside => ?_⟩
    obtain ⟨text, _, textOk⟩ :=
      Outcome.exists_mem_of_mapM (Outcome.mapM_eq_ok_iff.mpr formatted) inside
    obtain ⟨number, numberOk, _⟩ := (formatRatio_eq_ok_iff asked).mp textOk
    exact ⟨number, numberOk⟩
  · rintro ⟨countable, finite⟩
    have each : ∀ column ∈ Metrics.ratioColumns, ∃ text,
        formatRatio precision (column.2 row.metrics) = .ok text := by
      intro column inside
      obtain ⟨number, numberOk⟩ := finite column inside
      exact ⟨_, (formatRatio_eq_ok_iff asked).mpr ⟨number, numberOk, rfl⟩⟩
    obtain ⟨ratios, ratiosOk⟩ := Outcome.exists_mapM_eq_ok each
    exact ⟨_, cells_eq_ok_iff.mpr ⟨countable, ratios, Outcome.mapM_eq_ok_iff.mp ratiosOk, rfl⟩⟩

theorem nearestDouble_ratio {part : Int} (small : part.natAbs < Nat.pow 10 290) (whole : Int) :
    ∃ number, nearestDouble (Metrics.ratio part whole) = .ok number := by
  have bound : Nat.pow 10 290 ≤ Nat.pow 2 (Binary64.greatestExponent.toNat + 1) := by
    decide +kernel
  apply nearestDouble_of_small
  calc (Metrics.ratio part whole).num.natAbs ≤ part.natAbs := Metrics.natAbs_num_ratio_le part whole
    _ < Nat.pow 10 290 := small
    _ ≤ Nat.pow 2 (Binary64.greatestExponent.toNat + 1) := bound

theorem expressible_of_small {metrics : Metrics}
    (small : ∀ column ∈ Metrics.columns, (column.2 metrics).natAbs < Nat.pow 10 290) :
    Expressible metrics := by
  constructor
  · intro column inside
    have bound : Nat.pow 10 290 ≤ Nat.pow 10 Number.maxDigits := by decide +kernel
    exact Nat.lt_of_lt_of_le (small column inside) bound
  · simp only [Metrics.columns, List.forall_mem_cons] at small
    obtain ⟨_, visible, deprecated, _, documented, generics, _⟩ := small
    simp only [Metrics.ratioColumns, List.forall_mem_cons]
    exact ⟨nearestDouble_ratio generics _, nearestDouble_ratio visible _,
      nearestDouble_ratio deprecated _, nearestDouble_ratio documented _, List.forall_mem_nil _⟩

end Report

end ApiCensus
