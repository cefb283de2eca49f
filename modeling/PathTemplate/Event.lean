import PathTemplate.Escape
import PathTemplate.Json.Value
import PathTemplate.Segment

/-!
Log events: what they report, at which level, in which words and with which fields.
-/

namespace PathTemplate

inductive Level
  | trace
  | debug
deriving DecidableEq, Repr

def Level.name : Level → String
  | .trace => "trace"
  | .debug => "debug"

/-- Why a segment refuses the tokens it meets: its text differs, or its leading text does and the
options insist on it, or a parameter is left without a token. -/
inductive Mismatch
  | text
  | lead
  | missing
deriving DecidableEq, Repr

def Mismatch.message : Mismatch → String
  | .text => "segment mismatch"
  | .lead => "wildcard prefix mismatch"
  | .missing => "missing required segment"

inductive Event
  | refused (cause : Mismatch) (index : Nat) (segment : Segment) (token : String)
  | keptRaw (cause : Escape.Fault) (token : String)
  | resolved (path template : String) (matched : Bool)
  | noOptionsFile (name : String)
deriving DecidableEq, Repr

namespace Event

def level : Event → Level
  | refused .. | resolved .. => .trace
  | keptRaw .. | noOptionsFile .. => .debug

def message : Event → String
  | refused cause .. => cause.message
  | keptRaw .malformed _ => "malformed percent escape, keeping raw segment"
  | keptRaw (.notUtf8 _) _ => "decoded segment is not UTF-8, keeping raw segment"
  | resolved .. => "route match"
  | noOptionsFile _ => "options file not found, using defaults"

/-- A missing token is not shown. -/
def fields : Event → List (String × Json)
  | refused .missing index segment _ =>
    [("index", .integer index), ("segment", .string segment.render)]
  | refused _ index segment token =>
    [("index", .integer index), ("segment", .string segment.render), ("val", .string token)]
  | keptRaw .malformed token => [("segment", .string token)]
  | keptRaw (.notUtf8 cause) token =>
    [("segment", .string token), ("error", .string cause.message)]
  | resolved path template matched =>
    [("path", .string path), ("pattern", .string template), ("matched", .boolean matched)]
  | noOptionsFile name => [("path", .string (Text.quoted name))]

end Event
end PathTemplate
