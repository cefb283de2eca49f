import PathTemplate.Choice

/-!
What a match may be told: how parameter values are decoded, and whether the text before the `*` of
a wildcard has to agree with the path.
-/

namespace PathTemplate

/-- With `percent` a plus sign stands for itself, with `form` it stands for a space. -/
inductive Decoding
  | percent
  | form
deriving DecidableEq, Repr

instance : Choice Decoding where
  all := [.percent, .form]
  name
    | .percent => "percent"
    | .form => "form"

theorem Decoding.ofName?_name (d : Decoding) :
    Choice.ofName? Decoding (Choice.name d) = some d := by
  cases d <;> decide

/-- With `lenient` a wildcard captures whatever its leading text is; with `strict` only a wildcard
without leading text captures. -/
inductive LeadRule
  | lenient
  | strict
deriving DecidableEq, Repr

instance : Choice LeadRule where
  all := [.lenient, .strict]
  name
    | .lenient => "lenient"
    | .strict => "strict"

theorem LeadRule.ofName?_name (r : LeadRule) :
    Choice.ofName? LeadRule (Choice.name r) = some r := by
  cases r <;> decide

structure Options where
  decoding : Decoding := .percent
  leads : LeadRule := .lenient
deriving DecidableEq, Repr

namespace Options

/-- The names under which the settings are written. -/
def decodingKey : String := "decoding"

def leadsKey : String := "wildcard_prefix"

end Options
end PathTemplate
