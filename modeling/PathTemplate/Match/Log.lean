import PathTemplate.Match.Walk

/-!
What a match reports: each token that could not be decoded as it comes up, the refusal that ended
the walk if one did, and last the outcome.
-/

namespace PathTemplate

def Escape.log (d : Decoding) (token : String) : List Event :=
  match read d token with
  | .ok _ => []
  | .error cause => [.keptRaw cause token]

/-- Reports of the walk from the segment number `index` on. -/
def walkLog (o : Options) : Nat → List Segment → List String → List Event
  | _, [], [] => []
  | index, [], token :: _ => [.refused .text index .blank token]
  | index, s :: segments, left =>
    match s.meet o left with
    | .pass => walkLog o (index + 1) segments left.tail
    | .bind _ _ =>
      Escape.log o.decoding (nextToken left) ++ walkLog o (index + 1) segments left.tail
    | .bindRest _ _ => left.flatMap (Escape.log o.decoding)
    | .capture _ => []
    | .refuse cause => [.refused cause index s (nextToken left)]

/-- Reports of the match with this seed. -/
def Template.log (t : Template) (path : String) (seed : Params) : List Event :=
  walkLog t.options 0 t.segments (Path.tokens path)
    ++ [.resolved path t.render (t.resolve path seed).isSome]

end PathTemplate
