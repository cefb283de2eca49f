import PathTemplate.Json.Literal
import PathTemplate.Match.Json
import PathTemplate.Options.Json
import PathTemplate.Options.Load
import PathTemplate.Proofs.Composition
import PathTemplate.Proofs.Escapes
import PathTemplate.Proofs.Matchable
import PathTemplate.Proofs.Recovery
import PathTemplate.Proofs.RestCapture
import PathTemplate.Proofs.Separators
import PathTemplate.Proofs.Trace
import PathTemplate.Proofs.Utf8
import PathTemplate.Session
import PathTemplate.Proofs.Literals
import PathTemplate.Proofs.Relaxation
import PathTemplate.Proofs.PlusSigns
import PathTemplate.Proofs.JsonForm
import PathTemplate.Proofs.Settings
import PathTemplate.Proofs.OptionsText
import PathTemplate.Proofs.Sessions
