import PathTemplate.Json.Fault
import PathTemplate.Options

/-!
Options in JSON: an object with the settings as members, or an array that gives them in their order.
A setting is a string with the name of its value, or an object with that name as its only member and
null under it. What is missing takes its default.
-/

namespace PathTemplate

namespace Json

def choiceNamed (α : Type) [Choice α] (name : String) : Except Fault α :=
  match Choice.ofName? α name with
  | some a => .ok a
  | none => .error (.unknownName name (Choice.names α))

def choice (α : Type) [Choice α] : Json → Except Fault α
  | string name => choiceNamed α name
  | object [(name, content)] => do
    let a ← choiceNamed α name
    match content with
    | null => return a
    | v => throw (.wrongType v "unit")
  | object _ => .error .notSingle
  | v => .error (.wrongType v "string or map")

/-- A setting that may be absent. -/
def choiceOr {α : Type} [Choice α] (default : α) : Option Json → Except Fault α
  | none => .ok default
  | some v => choice α v

end Json

namespace Options

open Json

def ofSettings (decoding leads : Option Json) : Except Fault Options := do
  let decoding ← choiceOr .percent decoding
  let leads ← choiceOr .lenient leads
  return { decoding, leads }

/-- Members that name no setting are passed over. -/
def ofJson : Json → Except Fault Options
  | object members => ofSettings (members.lookup decodingKey) (members.lookup leadsKey)
  | array items => do
    let o ← ofSettings items[0]? items[1]?
    checkLength items 2
    return o
  | v => .error (.wrongType v "struct MatchOptions")

def toJson (o : Options) : Json :=
  .object [(decodingKey, .string (Choice.name o.decoding)),
    (leadsKey, .string (Choice.name o.leads))]

end Options
end PathTemplate
