import PathTemplate.Choice
import PathTemplate.Number.Shortest
import PathTemplate.Text.Quoted
import PathTemplate.Toml.Value

/-!
Why a TOML value cannot be read as options.
-/

namespace PathTemplate.Toml

inductive Fault
  | notOptions (found : Value)
  | notChoice
  | noKey
  | manyKeys
  | unknownName (found : String) (known : List String)
  | notTable (found : Value)
  | tableNotEmpty
  | arrayNotEmpty

/-- The kind of a value. -/
def Value.kind : Value → String
  | .string _ => "string"
  | .integer _ => "integer"
  | .float _ => "float"
  | .boolean _ => "boolean"
  | .dateTime => "datetime"
  | .array _ => "array"
  | .table .braced _ => "inline table"
  | .table _ _ => "table"
  | .tables _ => "array of tables"

/-- Floats are written without an exponent, and ties go up. -/
def numberStyle : NumberStyle where
  tie := .up
  isPlain _ := true

/-- A value as a message names what it has found. -/
def Value.describe : Value → String
  | .string s => "string " ++ Text.quoted s
  | .integer i => "integer `" ++ i.repr ++ "`"
  | .float x => "floating point `" ++ x.render numberStyle ++ "`"
  | .boolean b => "boolean `" ++ (if b then "true" else "false") ++ "`"
  | v => v.kind

def Fault.message : Fault → String
  | notOptions found => "invalid type: " ++ found.describe ++ ", expected struct MatchOptions"
  | notChoice => "wanted string or table"
  | noKey => "wanted exactly 1 element, found 0 elements"
  | manyKeys => "wanted exactly 1 element, more than 1 element"
  | unknownName found known => Choice.unknownName found known
  | notTable found => "expected table, found " ++ found.kind
  | tableNotEmpty => "expected empty table"
  | arrayNotEmpty => "expected empty array"

end PathTemplate.Toml
