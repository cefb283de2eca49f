import PathTemplate.Event
import PathTemplate.Match.Basic
import PathTemplate.Template

/-!
Matching: the segments of a template walk along the tokens of a path. Each segment meets the tokens
that are left, and either lets the walk go on behind the first of them, or ends it with a match, or
refuses. Past the last token a segment meets the empty text. A path that goes on behind the last
segment does not match.
-/

namespace PathTemplate

/-- What comes of a segment meeting the tokens that are left. The walk goes on after `pass` and
`bind`, and ends with the others. -/
inductive Verdict
  | pass
  | bind (name value : String)
  | bindRest (name value : String)
  | capture (rest : String)
  | refuse (cause : Mismatch)
deriving DecidableEq, Repr

/-- The token that a segment meets, empty past the last one. -/
def nextToken (left : List String) : String := left.headD ""

/-- Equal text comes first: a wildcard that equals its token is a literal, whatever the options
say. -/
def Segment.meet (o : Options) (left : List String) : Segment → Verdict
  | .literal text => if text = nextToken left then .pass else .refuse .text
  | .wildcard lead =>
    if lead = nextToken left then .pass
    else if nextToken left = "" then .refuse .text
    else if o.leads = .strict ∧ lead ≠ "" then .refuse .lead
    else .capture (Path.ofTokens left)
  | .param name a =>
    if nextToken left = "" ∧ a.acceptsNone = false then .refuse .missing
    else if a.takesRest then
      .bindRest name ("/".intercalate (left.map (Escape.decode o.decoding)))
    else .bind name (Escape.decode o.decoding (nextToken left))

/-- What a finished walk has found: bindings in the order they were made, and the captured rest. -/
structure Findings where
  bindings : List (String × String) := []
  rest : Option String := none
deriving DecidableEq, Repr

def Findings.prepend (name value : String) (f : Findings) : Findings :=
  { f with bindings := (name, value) :: f.bindings }

def walk (o : Options) : List Segment → List String → Option Findings
  | [], [] => some {}
  | [], _ :: _ => none
  | s :: segments, left =>
    match s.meet o left with
    | .pass => walk o segments left.tail
    | .bind name value => (walk o segments left.tail).map (Findings.prepend name value)
    | .bindRest name value => some { bindings := [(name, value)] }
    | .capture rest => some { rest := some rest }
    | .refuse _ => none

/-- Later bindings win over earlier ones and over the seed. -/
def Findings.toMatch (seed : Params) (f : Findings) : Match where
  params := f.bindings.foldl (fun ps b => ps.insert b.1 b.2) seed
  rest := f.rest

def matchTokens (o : Options) (segments : List Segment) (tokens : List String) (seed : Params) :
    Option Match :=
  (walk o segments tokens).map (Findings.toMatch seed)

def Template.resolve (t : Template) (path : String) (seed : Params) : Option Match :=
  matchTokens t.options t.segments (Path.tokens path) seed

/-- The match of a path with the template that a text writes. -/
def matchPath (path text : String) (seed : Params) (o : Options) : Option Match :=
  Template.resolve { Template.ofString text with options := o } path seed

end PathTemplate
