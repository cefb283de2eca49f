import PathTemplate.Options
import PathTemplate.Text.Blank
import PathTemplate.Toml.Document
import PathTemplate.Toml.Fault

/-!
Options in TOML. They stand under the key `matching`, as a table or as an array that gives the
settings in their order. A setting is a string with the name of its value, or a table with that name
as its only key and nothing under it. What is missing takes its default, and keys that name no
setting are passed over.
-/

namespace PathTemplate

namespace Toml

def choiceNamed (α : Type) [Choice α] (name : String) : Except Fault α :=
  match Choice.ofName? α name with
  | some a => .ok a
  | none => .error (.unknownName name (Choice.names α))

/-- What may stand under the name of a choice: a table or an array, as long as it is empty. -/
def checkContent : Value → Except Fault Unit
  | .table _ [] | .array [] | .tables [] => .ok ()
  | .table .. | .array _ => .error .tableNotEmpty
  | .tables _ => .error .arrayNotEmpty
  | v => .error (.notTable v)

def choice (α : Type) [Choice α] : Value → Except Fault α
  | .string name => choiceNamed α name
  | .table _ [] => .error .noKey
  | .table _ [(name, content)] => do
    let a ← choiceNamed α name
    checkContent content
    return a
  | .table .. => .error .manyKeys
  | _ => .error .notChoice

end Toml

namespace Options

open Toml

/-- Takes an entry of the table into account. -/
def withEntry (o : Options) (entry : String × Value) : Except Fault Options :=
  if entry.1 = decodingKey then do return { o with decoding := ← choice Decoding entry.2 }
  else if entry.1 = leadsKey then do return { o with leads := ← choice LeadRule entry.2 }
  else .ok o

/-- The entries are taken in their order, so the first fault is reported. -/
def ofEntries (es : Entries) : Except Fault Options := es.foldlM withEntry {}

def ofItems (items : List Value) : Except Fault Options :=
  ofEntries ([decodingKey, leadsKey].zip items)

/-- A date or time counts as a table whose keys name no setting. -/
def ofToml : Value → Except Fault Options
  | .table _ es => ofEntries es
  | .array items => ofItems items
  | .tables items => ofItems (items.map (.table .header))
  | .dateTime => .ok {}
  | v => .error (.notOptions v)

def tomlKey : String := "matching"

def ofDocument (es : Entries) : Except Fault Options :=
  match es.lookup tomlKey with
  | none => .ok {}
  | some v => ofToml v

/-- Why a text has no options: it is no document, or a document with a fault. -/
inductive TextFault
  | notToml
  | fault (cause : Fault)

/-- Blank text stands for the defaults. -/
def ofText (text : String) : Except TextFault Options :=
  if text.toList.all Text.isBlank then .ok {}
  else match Toml.parse text with
    | none => .error .notToml
    | some es => (ofDocument es).mapError .fault

def TextFault.message (_ : TextFault) : String := "Failed to parse matching options"

/-- The message that names the fault, none where the text is no document. -/
def TextFault.causes : TextFault → List String
  | notToml => []
  | fault cause => [cause.message]

/-- The settings as lines of a document. -/
def toText (o : Options) : String :=
  decodingKey ++ " = \"" ++ Choice.name o.decoding ++ "\"\n"
    ++ leadsKey ++ " = \"" ++ Choice.name o.leads ++ "\"\n"

end Options
end PathTemplate
