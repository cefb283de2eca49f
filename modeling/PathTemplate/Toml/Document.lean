import PathTemplate.Toml.DateTime
import PathTemplate.Toml.Number
import PathTemplate.Toml.Table
import PathTemplate.Toml.Text

/-!
TOML documents, read into the entries of their top table. Text that is no document has no entries
at all; where it fails is not told.
-/

namespace PathTemplate.Toml

open Reader

def word : Reader Value :=
  (expectAll ['t', 'r', 'u', 'e'] *> pure (.boolean true))
    <|> (expectAll ['f', 'a', 'l', 's', 'e'] *> pure (.boolean false))

def scalarValue : Reader Value :=
  (.string <$> (blockText <|> lineText)) <|> word <|> (dateTime *> pure .dateTime) <|> number

/-- The elements of an array after its opening bracket. A comma may follow the last one. -/
def arrayBody (element : Reader Value) : Reader (List Value) := do
  gap
  let items ← untilNone do
    if (← look) = some ']' then return none
    let item ← element
    gap
    if (← look) ≠ some ']' then expect ',' *> gap
    return some item
  expect ']'
  return items

/-- A key with its value. -/
def binding (value : Reader Value) : Reader ((List String × String) × Value) := do
  let key ← dottedKey
  expect '='
  blanks
  let v ← value
  blanks
  return (key, v)

/-- Adds bindings one after the other. -/
def defineAll (bindings : List ((List String × String) × Value)) (es : Entries) : Option Entries :=
  bindings.foldlM (fun es b => es.define b.1.2 b.2 b.1.1) es

/-- The entries of a table after its opening brace, all on one line as far as it goes. -/
def braceBody (value : Reader Value) : Reader Entries := do
  blanks
  let bindings ← (do
    if (← look) = some '\x7d' then return []
    let first ← binding value
    let more ← untilNone do
      if (← look) = some '\x7d' then return none
      expect ','
      some <$> binding value
    return first :: more)
  expect '\x7d'
  liftM (defineAll bindings [])

/-- A value with at most `depth` arrays and tables inside each other. -/
def value : Nat → Reader Value
  | 0 => scalarValue
  | depth + 1 => do
    match ← look with
    | some '[' => expect '[' *> (.array <$> arrayBody (value depth))
    | some '\x7b' => expect '\x7b' *> (.table .braced <$> braceBody (value depth))
    | _ => scalarValue

def maxDepth : Nat := 79

/-- A line of a document. -/
inductive Statement
  | define (path : List String) (key : String) (v : Value)
  | openTable (path : List String) (key : String)
  | openElement (path : List String) (key : String)

def headerLine : Reader Statement := do
  expect '['
  if (← look) = some '[' then
    expect '['
    let (path, key) ← dottedKey
    expectAll [']', ']']
    return .openElement path key
  else
    let (path, key) ← dottedKey
    expect ']'
    return .openTable path key

def bindingLine : Reader Statement := do
  let ((path, key), v) ← binding (value maxDepth)
  return .define path key v

/-- The statements of a text. A mark of byte order may stand first. A comment that the gaps leave
is the last line, without an end of its own. -/
def statements : Reader (List Statement) := do
  expect '\uFEFF' <|> pure ()
  gap
  let lines ← untilNone do
    match ← look with
    | none => return none
    | some '#' => comment *> atEnd *> pure none
    | some c =>
      let statement ← if c = '[' then headerLine else bindingLine
      lineEnd
      gap
      return some statement
  return lines

/-- A document as far as it is read: its entries, and where the next key goes. -/
structure Draft where
  entries : Entries := []
  table : List String := []

def Draft.add (d : Draft) : Statement → Option Draft
  | .define path key v => do
    let es ← d.entries.atPath (Entries.define key v path) d.table
    return { d with entries := es }
  | .openTable path key => do
    let es ← d.entries.atPath (Entries.openTable key) path
    return ⟨es, path ++ [key]⟩
  | .openElement path key => do
    let es ← d.entries.atPath (Entries.openElement key) path
    return ⟨es, path ++ [key]⟩

def parse (text : String) : Option Entries := do
  let (lines, _) ← statements.run text.toList
  let draft ← lines.foldlM Draft.add {}
  return draft.entries

end PathTemplate.Toml
