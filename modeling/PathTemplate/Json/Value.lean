import PathTemplate.Number.Shortest
import PathTemplate.Text.Quoted

/-!
JSON values. Numbers are integers of 64 bits, signed or not, or binary floating-point numbers; the
members of an object keep the order they are given in.
-/

namespace PathTemplate

inductive Json
  | null
  | boolean (b : Bool)
  | integer (i : Int)
  | float (x : Binary64)
  | string (s : String)
  | array (items : List Json)
  | object (members : List (String × Json))

namespace Json

def ofStrings (entries : List (String × String)) : Json :=
  .object (entries.map fun e => (e.1, .string e.2))

/-- Ties go to the even digit, and the point moves at most sixteen places to the right of the
first digit and five to the left. -/
def numberStyle : NumberStyle where
  tie := .even
  isPlain p := -5 < p && p ≤ 16

/-- The value as a message names what it has found. -/
def describe : Json → String
  | null => "null"
  | boolean b => "boolean `" ++ (if b then "true" else "false") ++ "`"
  | integer i => "integer `" ++ i.repr ++ "`"
  | float x => "floating point `" ++ x.render numberStyle ++ "`"
  | string s => "string " ++ Text.quoted s
  | array _ => "sequence"
  | object _ => "map"

end Json
end PathTemplate
