import PathTemplate.Text.Digit
import PathTemplate.Toml.Reader

/-!
Quoted text and keys. Basic text stands in double quotes and has escapes, literal text stands in
single quotes and has none. Either may be written as a block in three quotes, which may hold line
ends, and quotes as long as fewer than three stand together; up to two more may stand right before
the closing ones.
-/

namespace PathTemplate.Toml

open Reader

/-- What an escape of one letter stands for. -/
def escaped? : Char → Option Char
  | 'b' => some '\x08'
  | 't' => some '\t'
  | 'n' => some '\n'
  | 'f' => some '\x0c'
  | 'r' => some '\r'
  | '"' => some '"'
  | '\\' => some '\\'
  | _ => none

/-- The character whose code point stands next in `count` hex digits. Surrogates have no
character. -/
def scalar (count : Nat) : Reader Char := do
  let digits ← (List.replicate count ()).mapM fun _ => next
  let n := Text.ofDigits 16 (← digits.mapM fun c => liftM (Text.hexDigit? c))
  if n.isValidChar then return Char.ofNat n else failure

/-- An escape after its backslash. -/
def escape : Reader Char := do
  match ← next with
  | 'u' => scalar 4
  | 'U' => scalar 8
  | c => liftM (escaped? c)

/-- One character of basic text, `none` at its closing quote. -/
def basicChar : Reader (Option Char) := do
  match ← look with
  | some '"' => return none
  | _ =>
    let c ← next
    if c = '\\' then some <$> escape
    else do
      guard (isText c)
      return some c

/-- Text on one line. -/
def lineText : Reader String := do
  match ← next with
  | '"' =>
    let cs ← untilNone basicChar
    expect '"'
    return String.ofList cs
  | '\'' =>
    let cs ← takeWhile fun c => isText c && c != '\''
    expect '\''
    return String.ofList cs
  | _ => failure

/-- A line end of a block, whatever its form. -/
def blockLine : Reader (List Char) := newline *> pure ['\n']

/-- A backslash at the end of a line drops all white space up to the next text. -/
def joinedLines : Reader (List Char) := do
  expect '\\'
  blanks
  newline
  blankLines
  return []

/-- Something inside a block, `none` where three quotes stand together. -/
def blockPiece (quote : Char) : Reader (Option (List Char)) := do
  let quotes := (← get).takeWhile (· == quote)
  if 3 ≤ quotes.length then return none
  let escapes := quote == '"'
  some <$> (blockLine <|> (guard escapes *> joinedLines) <|> do
    let c ← next
    if escapes ∧ c = '\\' then return [← escape]
    guard (isText c)
    return [c])

/-- A block, without the line end that may follow its opening quotes. -/
def blockText : Reader String := do
  let quote ← next
  guard (quote = '"' ∨ quote = '\'')
  expectAll [quote, quote]
  newline <|> pure ()
  let pieces ← untilNone (blockPiece quote)
  let closing ← takeWhile (· == quote)
  guard (closing.length ≤ 5)
  return String.ofList (pieces.flatten ++ closing.drop 3)

/-- The characters of a key without quotes. -/
def isKeyChar (c : Char) : Bool := c.isAlphanum || c == '-' || c == '_'

def keyPart : Reader String := lineText <|> (String.ofList <$> takeSome isKeyChar)

/-- A key is written as parts with dots between them, fewer than eighty. Its last part is the key
proper. -/
def dottedKey : Reader (List String × String) := do
  blanks
  let first ← keyPart
  blanks
  let more ← untilNone do
    match ← look with
    | some '.' =>
      expect '.'
      blanks
      let part ← keyPart
      blanks
      return some part
    | _ => return none
  let parts := first :: more
  guard (parts.length < 80)
  return (parts.dropLast, parts.getLastD first)

end PathTemplate.Toml
