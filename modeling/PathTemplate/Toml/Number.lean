import PathTemplate.Text.Digit
import PathTemplate.Toml.Reader
import PathTemplate.Toml.Value

/-!
Numbers. Digits may be grouped by single underscores between them. An integer fits 64 bits with its
sign, and a decimal one has no leading zero; other bases have no sign. A float has a fraction or an
exponent or both, or is one of the special words.
-/

namespace PathTemplate.Toml

open Reader

/-- Digits without the underscores between them; `none` unless a digit stands on either side of
each. -/
def ungrouped : List Char → Option (List Char)
  | [] => none
  | [c] => if c = '_' then none else some [c]
  | c :: '_' :: rest => if c = '_' then none else (ungrouped rest).map (c :: ·)
  | c :: rest => if c = '_' then none else (ungrouped rest).map (c :: ·)

/-- A group of digits for which `isDigit` holds. -/
def digits (isDigit : Char → Bool) : Reader (List Nat) := do
  let group ← takeSome fun c => isDigit c || c == '_'
  let ds ← liftM (ungrouped group)
  liftM (ds.mapM Text.hexDigit?)

def sign : Reader Bool := do
  match ← look with
  | some '-' => expect '-' *> pure true
  | some '+' => expect '+' *> pure false
  | _ => return false

def signed (negative : Bool) (n : Nat) : Int := if negative then -n else n

def ranged (i : Int) : Reader Value := do
  guard (Int64.minValue.toInt ≤ i ∧ i ≤ Int64.maxValue.toInt)
  return .integer i

def decimalDigits : Reader (List Nat) := do
  let ds ← digits Char.isDigit
  guard (ds.length = 1 ∨ ds.head? ≠ some 0)
  return ds

def decimalInteger : Reader Value := do
  let negative ← sign
  ranged (signed negative (Text.ofDigits 10 (← decimalDigits)))

def basedInteger : Reader Value := do
  expect '0'
  let based (base : Nat) (isDigit : Char → Bool) : Reader Value := do
    ranged (Text.ofDigits base (← digits isDigit))
  match ← next with
  | 'x' => based 16 fun c => (Text.hexDigit? c).isSome
  | 'o' => based 8 fun c => '0' ≤ c && c ≤ '7'
  | 'b' => based 2 fun c => c == '0' || c == '1'
  | _ => failure

def fraction : Reader (List Nat) := do
  expect '.'
  digits Char.isDigit

def exponent : Reader Int := do
  expect 'e' <|> expect 'E'
  let negative ← sign
  return signed negative (Text.ofDigits 10 (← digits Char.isDigit))

/-- A positive number beyond all finite ones is refused, a negative one becomes infinite. -/
def decimalFloat : Reader Value := do
  let negative ← sign
  let whole ← decimalDigits
  let part ← fraction <|> pure []
  let scale ← if part = [] then exponent else exponent <|> pure 0
  let x := Binary64.ofDecimal negative (Text.ofDigits 10 (whole ++ part)) (scale - part.length)
  guard (x ≠ .infinite false)
  return .float x

def specialFloat : Reader Value := do
  let negative ← sign
  (expectAll ['i', 'n', 'f'] *> pure (.float (.infinite negative)))
    <|> (expectAll ['n', 'a', 'n'] *> pure (.float .nan))

def number : Reader Value :=
  specialFloat <|> decimalFloat <|> basedInteger <|> decimalInteger

end PathTemplate.Toml
