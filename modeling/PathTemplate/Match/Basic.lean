import Std.Data.ExtTreeMap

/-!
What a match yields: the values of the parameters by name, and the rest of the path if a wildcard
captured one.
-/

namespace PathTemplate

/-- Parameter values by name. -/
abbrev Params := Std.ExtTreeMap String String

structure Match where
  params : Params := {}
  rest : Option String := none
deriving DecidableEq

namespace Match

def get? (m : Match) (name : String) : Option String := m.params[name]?

end Match
end PathTemplate
