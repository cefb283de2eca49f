import PathTemplate.Toml.Value

/-!
Building up tables. A key is defined once, and a table is opened once: by a header, by dotted keys
or in braces. Headers may open what longer headers implied, and lead through any table or into the
last element of an array of tables; dotted keys lead only through tables that dotted keys made or
headers implied. All functions answer `none` where the document breaks these rules.
-/

namespace PathTemplate.Toml.Entries

/-- Puts a value in the place of the one under `key`. -/
def replace (key : String) (v : Value) (es : Entries) : Entries :=
  es.map fun e => if e.1 = key then (key, v) else e

/-- Changes the last of some tables. -/
def atLast (edit : Entries → Option Entries) (items : List Entries) : Option (List Entries) := do
  let last ← items.getLast?
  let last ← edit last
  return items.dropLast ++ [last]

/-- Adds a value under a dotted key, whose parts before the last are `path`. If there are any, the
last of them names a table that dotted keys made: the way there may lead through a table that a
header implied or an array of tables, but not end in one. -/
def define (key : String) (v : Value) : List String → Entries → Option Entries
  | [], es => if (es.lookup key).isSome then none else some (es ++ [(key, v)])
  | k :: path, es =>
    match es.lookup k with
    | none => do
      let sub ← define key v path []
      return es ++ [(k, .table .dotted sub)]
    | some (.table .dotted sub) => do
      let sub ← define key v path sub
      return replace k (.table .dotted sub) es
    | some (.table .implied sub) => do
      guard (path ≠ [])
      let sub ← define key v path sub
      return replace k (.table .implied sub) es
    | some (.tables items) => do
      guard (path ≠ [])
      let items ← atLast (define key v path) items
      return replace k (.tables items) es
    | some _ => none

/-- Changes the table that a header path leads to, with implied tables on the way where there are
none. -/
def atPath (edit : Entries → Option Entries) : List String → Entries → Option Entries
  | [], es => edit es
  | k :: path, es =>
    match es.lookup k with
    | none => do
      let sub ← atPath edit path []
      return es ++ [(k, .table .implied sub)]
    | some (.table .braced _) => none
    | some (.table origin sub) => do
      let sub ← atPath edit path sub
      return replace k (.table origin sub) es
    | some (.tables items) => do
      let items ← atLast (atPath edit path) items
      return replace k (.tables items) es
    | some _ => none

/-- Opens the table of a header. One that was implied so far moves to the end. -/
def openTable (key : String) (es : Entries) : Option Entries :=
  match es.lookup key with
  | none => some (es ++ [(key, .table .header [])])
  | some (.table .implied sub) =>
    some (es.filter (·.1 ≠ key) ++ [(key, .table .header sub)])
  | some _ => none

/-- Opens one more element of an array of tables. -/
def openElement (key : String) (es : Entries) : Option Entries :=
  match es.lookup key with
  | none => some (es ++ [(key, .tables [[]])])
  | some (.tables items) => some (replace key (.tables (items ++ [[]])) es)
  | some _ => none

end PathTemplate.Toml.Entries
