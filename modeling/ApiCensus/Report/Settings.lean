import ApiCensus.Report.Ratio

/-!
# Report settings

What a configuration says about output: the format of tables and the number of
decimal places of ratios.
-/

namespace ApiCensus.Report

/-- The output part of a configuration. -/
def outputSettings (config : Value) : Except ShapeError Value := do
  let config ← (config.orElse (.record [])).asRecord
  ((config.get "output").orElse (.record [])).asRecord

/-- The number of decimal places of ratios. -/
def ratioPrecision (output : Value) : Except Failure Int :=
  integerSetting ((output.get? "ratio_precision").getD (.int 4))

/-- The format of tables. -/
def tableFormat (output : Value) : Value :=
  (output.get "table_format").orElse (.text "simple")

end ApiCensus.Report
