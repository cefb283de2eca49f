import PathTemplate.Choice
import PathTemplate.Json.Value

/-!
Why a JSON value cannot be read as something else.
-/

namespace PathTemplate.Json

inductive Fault
  | wrongType (found : Json) (expected : String)
  | wrongLength (found : Nat) (expected : String)
  | notSingle
  | missing (member : String)
  | unknownName (found : String) (known : List String)

def Fault.message : Fault → String
  | wrongType found expected => "invalid type: " ++ found.describe ++ ", expected " ++ expected
  | wrongLength found expected => "invalid length " ++ found.repr ++ ", expected " ++ expected
  | notSingle => "invalid value: map, expected map with a single key"
  | missing member => "missing field `" ++ member ++ "`"
  | unknownName found known => Choice.unknownName found known

/-- Refuses an array with more items than were used. -/
def checkLength (items : List Json) (used : Nat) : Except Fault Unit :=
  if items.length ≤ used then .ok ()
  else .error (.wrongLength items.length "fewer elements in array")

end PathTemplate.Json
