import PathTemplate.Event
import PathTemplate.Options.Toml
import PathTemplate.Text.Utf8

/-!
Options from a file. A file that is not there stands for the defaults, and the log says so.
-/

namespace PathTemplate.Options

/-- What a file name leads to. -/
inductive Source
  | missing
  | directory
  | file (octets : List UInt8)

inductive LoadFault
  | isDirectory
  | notUtf8
  | text (cause : TextFault)

def LoadFault.message (name : String) : LoadFault → String
  | isDirectory | notUtf8 => "Failed to read options file: " ++ Text.quoted name
  | text _ => "Failed to parse options file: " ++ Text.quoted name

def LoadFault.causes : LoadFault → List String
  | isDirectory => ["Is a directory (os error 21)"]
  | notUtf8 => ["stream did not contain valid UTF-8"]
  | text cause => cause.message :: cause.causes

def load : Source → Except LoadFault Options
  | .missing => .ok {}
  | .directory => .error .isDirectory
  | .file octets =>
    match Text.Utf8.read octets with
    | .error _ => .error .notUtf8
    | .ok cs => (ofText (String.ofList cs)).mapError .text

def loadLog (name : String) : Source → List Event
  | .missing => [.noOptionsFile name]
  | _ => []

end PathTemplate.Options
