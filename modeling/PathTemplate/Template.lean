import PathTemplate.Options
import PathTemplate.Path
import PathTemplate.Segment

/-!
Path templates: a list of segments with the options to match under.
-/

namespace PathTemplate

structure Template where
  segments : List Segment := []
  options : Options := {}
deriving DecidableEq, Repr

namespace Template

def ofString (text : String) : Template where
  segments := (Path.tokens text).map Segment.ofToken

def render (t : Template) : String := Path.ofTokens (t.segments.map Segment.render)

/-- The parameters in order, up to the first one that takes the rest. -/
def parametersOf : List Segment → List (String × Presence)
  | [] => []
  | .param name a :: rest => (name, a.presence) :: if a.takesRest then [] else parametersOf rest
  | _ :: rest => parametersOf rest

def parameters (t : Template) : List (String × Presence) := parametersOf t.segments

/-- Some segment is a wildcard. -/
def capturesRest (t : Template) : Bool := t.segments.any Segment.isWildcard

end Template
end PathTemplate
