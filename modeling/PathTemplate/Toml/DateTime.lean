import PathTemplate.Text.Digit
import PathTemplate.Toml.Reader

/-!
Dates and times: a date, a time of day, or both, then perhaps with an offset. Only whether the text
is one matters to what reads the document, so the readers answer nothing.
-/

namespace PathTemplate.Toml

open Reader

/-- The number in exactly `count` digits. -/
def fixedDigits (count : Nat) : Reader Nat := do
  let digits ← (List.replicate count ()).mapM fun _ => next
  Text.ofDigits 10 <$> digits.mapM fun c => liftM (Text.digit? c)

def isLeap (year : Nat) : Bool := year % 4 = 0 && (year % 100 ≠ 0 || year % 400 = 0)

def daysIn (year : Nat) : Nat → Nat
  | 2 => if isLeap year then 29 else 28
  | 4 | 6 | 9 | 11 => 30
  | _ => 31

def date : Reader Unit := do
  let year ← fixedDigits 4
  expect '-'
  let month ← fixedDigits 2
  guard (1 ≤ month ∧ month ≤ 12)
  expect '-'
  let day ← fixedDigits 2
  guard (1 ≤ day ∧ day ≤ daysIn year month)

def hoursMinutes : Reader Unit := do
  let hour ← fixedDigits 2
  guard (hour ≤ 23)
  expect ':'
  let minute ← fixedDigits 2
  guard (minute ≤ 59)

/-- A minute may have a leap second. -/
def timeOfDay : Reader Unit := do
  hoursMinutes
  expect ':'
  let second ← fixedDigits 2
  guard (second ≤ 60)
  discard (expect '.' *> takeSome Char.isDigit) <|> pure ()

def offset : Reader Unit := do
  match ← next with
  | 'Z' | 'z' => return
  | '+' | '-' => hoursMinutes
  | _ => failure

def dateTime : Reader Unit :=
  timeOfDay <|> do
    date
    let separator : Reader Unit := expect 'T' <|> expect 't' <|> expect ' '
    (separator *> timeOfDay *> (offset <|> pure ())) <|> pure ()

end PathTemplate.Toml
