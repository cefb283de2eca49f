import PathTemplate.Options
import PathTemplate.Text.Digit
import PathTemplate.Text.Utf8

/-!
Percent escapes in path tokens. A token stands for the octets that its escapes name and the UTF-8
of its other characters; it decodes to the text of those octets. A token with a percent sign that
two hex digits do not follow, or whose octets are not UTF-8, is kept as it is.
-/

namespace PathTemplate.Escape

open Text

/-- Why a token is kept as it is. -/
inductive Fault
  | malformed
  | notUtf8 (cause : Utf8.Fault)
deriving DecidableEq, Repr

/-- What a character outside escapes stands for. -/
def plain : Decoding → Char → Char
  | .percent, c => c
  | .form, c => if c = '+' then ' ' else c

def octets? (d : Decoding) : List Char → Option (List UInt8)
  | [] => some []
  | '%' :: a :: b :: rest =>
    match hexDigit? a, hexDigit? b with
    | some x, some y => (octets? d rest).map (UInt8.ofNat (x * 16 + y) :: ·)
    | _, _ => none
  | '%' :: _ => none
  | c :: rest => (octets? d rest).map (String.utf8EncodeChar (plain d c) ++ ·)

def read (d : Decoding) (token : String) : Except Fault String :=
  match octets? d token.toList with
  | none => .error .malformed
  | some octets =>
    match Utf8.read octets with
    | .ok cs => .ok (String.ofList cs)
    | .error cause => .error (.notUtf8 cause)

def decode (d : Decoding) (token : String) : String :=
  match read d token with
  | .ok text => text
  | .error _ => token

end PathTemplate.Escape
