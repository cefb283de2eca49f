/-!
Readers of TOML text. A reader takes what it can use off the front of the characters, or fails;
after a failure an alternative starts where the first one did.
-/

namespace PathTemplate.Toml

abbrev Reader := StateT (List Char) Option

namespace Reader

def next : Reader Char
  | [] => none
  | c :: cs => some (c, cs)

/-- The next character, left where it is. -/
def look : Reader (Option Char) := fun cs => some (cs.head?, cs)

def expect (c : Char) : Reader Unit
  | [] => none
  | d :: cs => if d = c then some ((), cs) else none

def expectAll : List Char → Reader Unit
  | [] => pure ()
  | c :: cs => do
    expect c
    expectAll cs

def takeWhile (p : Char → Bool) : Reader (List Char) := fun cs => some (cs.span p)

/-- Like `takeWhile`, but of at least one character. -/
def takeSome (p : Char → Bool) : Reader (List Char) := do
  let taken ← takeWhile p
  guard (taken ≠ [])
  return taken

def atEnd : Reader Unit
  | [] => some ((), [])
  | _ :: _ => none

/-- At most `n` rounds of `untilNone`. -/
def rounds {α : Type} (r : Reader (Option α)) : Nat → Reader (List α)
  | 0 => failure
  | n + 1 => do
    match ← r with
    | none => return []
    | some a => return a :: (← rounds r n)

/-- Repeats a reader until it answers `none`. Each other answer takes something, so the characters
there are bound the rounds. -/
def untilNone {α : Type} (r : Reader (Option α)) : Reader (List α) := fun cs =>
  rounds r (cs.length + 1) cs

def isBlank (c : Char) : Bool := c == ' ' || c == '\t'

/-- The characters that may stand in comments and quotes: no controls but the tab. -/
def isText (c : Char) : Bool := c == '\t' || (0x20 ≤ c.toNat && c.toNat != 0x7F)

def blanks : Reader Unit := do
  let _ ← takeWhile isBlank

def newline : Reader Unit := expect '\n' <|> expectAll ['\r', '\n']

def comment : Reader Unit := do
  expect '#'
  let _ ← takeWhile isText

/-- What may follow a statement on its line, and the end of the line. -/
def lineEnd : Reader Unit := do
  blanks
  comment <|> pure ()
  newline <|> atEnd

/-- Blanks and line ends, as many as there are. -/
def blankLines : Reader Unit := do
  let _ ← untilNone (some <$> (discard (takeSome isBlank) <|> newline) <|> pure none)

/-- Blanks, line ends and comments, as many as there are. -/
def gap : Reader Unit := do
  blankLines
  let _ ← untilNone (some <$> (comment *> newline *> blankLines) <|> pure none)

end Reader
end PathTemplate.Toml
