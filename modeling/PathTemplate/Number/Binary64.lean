/-!
Binary floating-point numbers of 64 bits, as exact numbers. Every finite one is a whole number of
units of 2^-1074. One with more than 53 significant bits of units ends in zeros, so the step to its
neighbours can be read off its length. Reading a decimal rounds it to the nearest such number, a
tie to the even one.
-/

namespace PathTemplate

inductive Binary64
  | finite (negative : Bool) (units : Nat)
  | infinite (negative : Bool)
  | nan
deriving DecidableEq, Repr

namespace Binary64

/-- The whole number nearest to `num / den`, a tie to the even one. -/
def roundEven (num den : Nat) : Nat :=
  let k := num / den
  let r := num % den
  if 2 * r < den then k else if den < 2 * r then k + 1 else k + k % 2

/-- The power of two that is the step between numbers of this length. -/
def step (units : Nat) : Nat := Nat.pow 2 (units.log2 - 52)

/-- The units of the number nearest to `num / den`, were there no largest one. -/
def nearest (num den : Nat) : Nat :=
  let scaled := num * Nat.pow 2 1074
  let s := step (scaled / den)
  roundEven scaled (den * s) * s

def ofUnits (negative : Bool) (units : Nat) : Binary64 :=
  if units < Nat.pow 2 2098 then .finite negative units else .infinite negative

/-- The number nearest to `digits * 10 ^ exponent`. Far outside the range of finite numbers the
power is not worked out. -/
def ofDecimal (negative : Bool) (digits : Nat) (exponent : Int) : Binary64 :=
  let size := (Nat.toDigits 10 digits).length + exponent
  if digits = 0 ∨ size < -400 then .finite negative 0
  else if size > 400 then .infinite negative
  else if exponent < 0 then ofUnits negative (nearest digits (Nat.pow 10 exponent.natAbs))
  else ofUnits negative (nearest (digits * Nat.pow 10 exponent.natAbs) 1)

/-- The units of a product, rounded. -/
def product (u v : Nat) : Nat := nearest (u * v) (Nat.pow 2 2148)

/-- The units of a quotient, rounded. -/
def quotient (u v : Nat) : Nat := nearest u v

/-- The units of a power of ten, rounded. -/
def powerOfTen (n : Nat) : Nat := nearest (Nat.pow 10 n) 1

end Binary64
end PathTemplate
