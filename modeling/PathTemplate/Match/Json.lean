import PathTemplate.Json.Fault
import PathTemplate.Match.Basic

/-!
Matches in JSON: an object with the parameters under `params` and the rest, if there is one, under
`rest`. Reading also takes an array that gives the two in this order, and a null rest for none.
-/

namespace PathTemplate.Match

open Json

def stringOf : Json → Except Fault String
  | string s => .ok s
  | v => .error (.wrongType v "a string")

def insertMember (ps : Params) (member : String × Json) : Except Fault Params := do
  return ps.insert member.1 (← stringOf member.2)

/-- Members are taken in the order of their names, so of several faults that of the first name is
reported. -/
def paramsOf : Json → Except Fault Params
  | object members =>
    (members.mergeSort fun a b => a.1 ≤ b.1).foldlM insertMember {}
  | v => .error (.wrongType v "a map")

def restOf : Option Json → Except Fault (Option String)
  | none | some null => .ok none
  | some v => some <$> stringOf v

/-- A faulty rest is reported before parameters that are not there. -/
def ofJson : Json → Except Fault Match
  | object members => do
    let params ← (members.lookup "params").mapM paramsOf
    let rest ← restOf (members.lookup "rest")
    match params with
    | some params => return { params, rest }
    | none => throw (.missing "params")
  | array [] => .error (.wrongLength 0 "struct Matches with 2 elements")
  | array (params :: items) => do
    let ps ← paramsOf params
    let rest ← restOf items.head?
    checkLength (params :: items) 2
    return { params := ps, rest }
  | v => .error (.wrongType v "struct Matches")

def paramsJson (ps : Params) : Json := ofStrings ps.toList

def toJson (m : Match) : Json :=
  .object (("params", paramsJson m.params)
    :: m.rest.elim [] fun rest => [("rest", .string rest)])

end PathTemplate.Match
