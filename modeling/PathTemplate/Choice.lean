/-!
Settings that are chosen by name.
-/

namespace PathTemplate

/-- A setting that is one of a few values, each with a name. -/
class Choice (α : Type) where
  all : List α
  name : α → String

namespace Choice

def ofName? (α : Type) [Choice α] (name : String) : Option α :=
  (all : List α).find? fun a => Choice.name a == name

def names (α : Type) [Choice α] : List String := (all : List α).map name

/-- The message about a name that no value has. -/
def unknownName (found : String) (known : List String) : String :=
  "unknown variant `" ++ found ++ "`, expected "
    ++ " or ".intercalate (known.map fun name => "`" ++ name ++ "`")

end Choice

end PathTemplate
