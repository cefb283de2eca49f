import PathTemplate.Number.Binary64

/-!
The fewest decimal digits that read back as a given binary number. The decimals that round to the
number fill an interval around it. Of the grids of multiples of a power of ten, the coarsest with a
point in the interval gives the digits, and of two such points the nearer one. Two layouts put the
digits into text: without an exponent, or with one where the digits alone would grow long.
-/

namespace PathTemplate

/-- Where a decimal goes that lies halfway between two others of the same length. -/
inductive Tie
  | up
  | even
deriving DecidableEq, Repr

/-- The decimal `digits * 10 ^ exponent`. -/
structure Decimal where
  digits : Nat
  exponent : Int
deriving DecidableEq, Repr

namespace Decimal

/-- An interval and a number in it, all three in one small unit. -/
structure Target where
  low : Nat
  value : Nat
  high : Nat
  closed : Bool
deriving DecidableEq, Repr

def Target.contains (t : Target) (x : Nat) : Bool :=
  if t.closed then t.low ≤ x && x ≤ t.high else t.low < x && x < t.high

/-- The unit is a quarter of 2^-1074 in units of 10^-324. A power of two is nearer to its lower
neighbour than to its upper one. -/
def target (units : Nat) : Target :=
  let s := Binary64.step units
  let below := if units = Nat.pow 2 52 * s ∧ 1 < s then s else 2 * s
  { low := (4 * units - below) * Nat.pow 10 324
    value := 4 * units * Nat.pow 10 324
    high := (4 * units + 2 * s) * Nat.pow 10 324
    closed := units / s % 2 = 0 }

/-- The point of a grid of the given width that stands for the target, as a multiple of it. -/
def Target.point? (t : Target) (tie : Tie) (width : Nat) : Option Nat :=
  let d := t.value / width
  match t.contains (d * width), t.contains ((d + 1) * width) with
  | false, false => none
  | true, false => some d
  | false, true => some (d + 1)
  | true, true =>
    let r := t.value % width
    if 2 * r < width then some d
    else if width < 2 * r then some (d + 1)
    else match tie with
      | .up => some (d + 1)
      | .even => some (d + d % 2)

/-- Tries the grids of 10^(n - 325) and below. -/
def search (t : Target) (tie : Tie) : Nat → Decimal
  | 0 => ⟨0, 0⟩
  | n + 1 =>
    match t.point? tie (Nat.pow 10 n * Nat.pow 2 1076) with
    | some d => ⟨d, (n : Int) - 324⟩
    | none => search t tie n

def shortest (tie : Tie) (units : Nat) : Decimal :=
  if units = 0 then ⟨0, 0⟩ else search (target units) tie 634

def zeros (n : Int) : List Char := List.replicate n.toNat '0'

/-- How many digits stand before the point. -/
def pointAt (d : Decimal) : Int := (Nat.toDigits 10 d.digits).length + d.exponent

/-- All digits, with a point and at least one digit on each side of it. -/
def plain (d : Decimal) : List Char :=
  let ds := Nat.toDigits 10 d.digits
  if 0 ≤ d.exponent then ds ++ zeros d.exponent ++ ['.', '0']
  else if 0 < d.pointAt then ds.take d.pointAt.toNat ++ '.' :: ds.drop d.pointAt.toNat
  else '0' :: '.' :: zeros (-d.pointAt) ++ ds

/-- One digit before the point, and an exponent with its sign. -/
def scientific (d : Decimal) : List Char :=
  let n := d.pointAt - 1
  let e := (if n < 0 then '-' else '+') :: Nat.toDigits 10 n.natAbs
  match Nat.toDigits 10 d.digits with
  | [c] => c :: 'e' :: e
  | c :: rest => c :: '.' :: rest ++ 'e' :: e
  | [] => []

end Decimal

/-- How the numbers of a format are written: what becomes of ties, and for which places of the
point the digits are written without an exponent. -/
structure NumberStyle where
  tie : Tie
  isPlain : Int → Bool

def Binary64.render (style : NumberStyle) : Binary64 → String
  | .nan => "NaN"
  | .infinite negative => if negative then "-inf" else "inf"
  | .finite negative units =>
    let d := Decimal.shortest style.tie units
    let body := if style.isPlain d.pointAt then d.plain else d.scientific
    String.ofList (if negative then '-' :: body else body)

end PathTemplate
