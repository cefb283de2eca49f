import PathTemplate.Match.Log
import PathTemplate.Options.Toml

/-!
A session keeps a template, a seed and the outcome of the last match, and takes one step at a time.
The rest that one match captured can be matched against a further template, with what it bound as
the seed.
-/

namespace PathTemplate

structure Session where
  template : Template := {}
  seed : Params := {}
  last : Option Match := none
deriving DecidableEq

inductive Step
  | parse (template : String)
  | options (o : Options)
  | optionsText (text : String)
  | seed (params : Params)
  | resolve (path : String)
  | resolveSeeded (path : String)
  | carry
  | descend (template : String)
  | get (name : String)
  | rest
  | rerender
  | equals (template : Template)
  | lastEquals (outcome : Option Match)

/-- What a step answers. Questions about the last match have no answer where there was none. -/
inductive Answer
  | template (t : Template)
  | options (o : Options)
  | fault (cause : Options.TextFault)
  | done
  | outcome (m : Option Match)
  | noRest
  | lookup (value : Option (Option String))
  | rerendered (same : Bool) (t : Template)
  | truth (b : Bool)

namespace Session

/-- Matches and keeps the outcome. -/
def resolve (s : Session) (t : Template) (path : String) (seed : Params) :
    Session × Answer × List Event :=
  let outcome := t.resolve path seed
  ({ s with last := outcome }, .outcome outcome, t.log path seed)

def step (s : Session) : Step → Session × Answer × List Event
  | .parse text =>
    let t := Template.ofString text
    ({ s with template := t }, .template t, [])
  | .options o => ({ s with template.options := o }, .options o, [])
  | .optionsText text =>
    match Options.ofText text with
    | .ok o => ({ s with template.options := o }, .options o, [])
    | .error cause => (s, .fault cause, [])
  | .seed params => ({ s with seed := params }, .done, [])
  | .resolve path => s.resolve s.template path {}
  | .resolveSeeded path => s.resolve s.template path s.seed
  | .carry =>
    match s.last with
    | some m => ({ s with seed := m.params }, .truth true, [])
    | none => (s, .truth false, [])
  | .descend text =>
    match s.last.bind Match.rest with
    | some rest =>
      s.resolve { Template.ofString text with options := s.template.options } rest s.seed
    | none => (s, .noRest, [])
  | .get name => (s, .lookup (s.last.map fun m => m.get? name), [])
  | .rest => (s, .lookup (s.last.map Match.rest), [])
  | .rerender =>
    let t := Template.ofString s.template.render
    ({ s with template := t }, .rerendered (t = s.template) t, [])
  | .equals t => (s, .truth (s.template = t), [])
  | .lastEquals outcome => (s, .truth (s.last = outcome), [])

/-- The steps one after the other: the session that each leaves behind, with its answer and its
log. -/
def run (s : Session) : List Step → List (Session × Answer × List Event)
  | [] => []
  | step :: steps => s.step step :: (s.step step).1.run steps

/-- The session behind all steps. -/
def after (s : Session) (steps : List Step) : Session :=
  steps.foldl (fun s step => (s.step step).1) s

end Session
end PathTemplate
