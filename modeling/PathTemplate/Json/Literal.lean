import PathTemplate.Json.Value
import PathTemplate.Text.Digit

/-!
Number literals of JSON. Without fraction and exponent a literal is an integer as long as it fits 64
bits. Any other is read in two steps, each rounded on its own: the digits, as many as fit 64 bits,
become a binary number, and that is multiplied or divided by a power of ten. So the number read may
be a neighbour of the nearest one.
-/

namespace PathTemplate.Json

structure Literal where
  negative : Bool
  whole : List Nat
  fraction : List Nat := []
  exponent : Option Int := none
deriving DecidableEq, Repr

namespace Literal

/-- Appends digits while the number fits 64 bits; how many were left is the second answer. -/
def fill (n : Nat) : List Nat → Nat × Nat
  | [] => (n, 0)
  | d :: ds => if n * 10 + d < UInt64.size then fill (n * 10 + d) ds else (n, ds.length + 1)

/-- Powers of ten end at the largest finite one, so a larger divisor is taken in two parts, and
what two of them leave of 64 bits is nothing. -/
def scale (units : Nat) (exponent : Int) : Nat :=
  let n := exponent.natAbs
  if 0 ≤ exponent then
    if n ≤ 308 then Binary64.product units (Binary64.powerOfTen n)
    else if units = 0 then 0 else Nat.pow 2 2098
  else if n ≤ 308 then Binary64.quotient units (Binary64.powerOfTen n)
  else if n ≤ 616 then
    Binary64.quotient (Binary64.quotient units (Binary64.powerOfTen 308))
      (Binary64.powerOfTen (n - 308))
  else 0

def toBinary64 (l : Literal) : Binary64 :=
  let (n, dropped) := fill 0 l.whole
  let (n, unused) := fill n l.fraction
  let exponent := l.exponent.getD 0 + dropped - (l.fraction.length - unused : Nat)
  Binary64.ofUnits l.negative (scale (Binary64.nearest n 1) exponent)

/-- A negative zero is no integer. -/
def toJson (l : Literal) : Json :=
  let n := Text.ofDigits 10 l.whole
  let i : Int := if l.negative then -n else n
  if l.fraction = [] ∧ l.exponent = none ∧ Int64.minValue.toInt ≤ i ∧ i < UInt64.size
      ∧ ¬(l.negative ∧ n = 0) then .integer i
  else .float l.toBinary64

end Literal
end PathTemplate.Json
