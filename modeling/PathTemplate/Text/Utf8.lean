/-!
Reading UTF-8, one octet at a time. Between characters an octet is a character of its own or the
lead of a longer one; the lead fixes how many octets follow and where the first of them lies. The
narrowed ranges keep out overlong forms, surrogates and numbers above the last code point.
-/

namespace PathTemplate.Text.Utf8

/-- Why octets are not UTF-8: they end inside a character, or a character breaks off after
`length` octets. `start` is where that character starts. -/
inductive Fault
  | truncated (start : Nat)
  | broken (start length : Nat)
deriving DecidableEq, Repr

def Fault.message : Fault → String
  | .truncated start => "incomplete utf-8 byte sequence from index " ++ start.repr
  | .broken start length =>
    "invalid utf-8 sequence of " ++ length.repr ++ " bytes from index " ++ start.repr

/-- What an unfinished character needs: `more` octets, the next of them between `low` and `high`.
`bits` is its number as far as it is known. -/
structure Pending where
  more : Nat
  low : UInt8
  high : UInt8
  bits : Nat
deriving DecidableEq, Repr

def lead? (b : UInt8) : Option Pending :=
  if b < 0xC2 then none
  else if b ≤ 0xDF then some ⟨1, 0x80, 0xBF, b.toNat - 0xC0⟩
  else if b = 0xE0 then some ⟨2, 0xA0, 0xBF, 0⟩
  else if b = 0xED then some ⟨2, 0x80, 0x9F, 0xD⟩
  else if b ≤ 0xEF then some ⟨2, 0x80, 0xBF, b.toNat - 0xE0⟩
  else if b = 0xF0 then some ⟨3, 0x90, 0xBF, 0⟩
  else if b = 0xF4 then some ⟨3, 0x80, 0x8F, 4⟩
  else if b ≤ 0xF3 then some ⟨3, 0x80, 0xBF, b.toNat - 0xF0⟩
  else none

/-- Reads on at position `pos`, inside a character if `state` holds where it started and what it
needs. -/
def readFrom (pos : Nat) (state : Option (Nat × Pending)) : List UInt8 → Except Fault (List Char)
  | [] =>
    match state with
    | none => .ok []
    | some (start, _) => .error (.truncated start)
  | b :: rest =>
    match state with
    | none =>
      if b < 0x80 then (readFrom (pos + 1) none rest).map (Char.ofNat b.toNat :: ·)
      else match lead? b with
        | none => .error (.broken pos 1)
        | some p => readFrom (pos + 1) (some (pos, p)) rest
    | some (start, p) =>
      if p.low ≤ b ∧ b ≤ p.high then
        let bits := p.bits * 0x40 + (b.toNat - 0x80)
        if p.more ≤ 1 then (readFrom (pos + 1) none rest).map (Char.ofNat bits :: ·)
        else readFrom (pos + 1) (some (start, ⟨p.more - 1, 0x80, 0xBF, bits⟩)) rest
      else .error (.broken start (pos - start))

def read (octets : List UInt8) : Except Fault (List Char) := readFrom 0 none octets

end PathTemplate.Text.Utf8
