import PathTemplate.Proofs.Rendering
import PathTemplate.Proofs.Stops

/-!
Templates one behind the other. Unless the walk stops inside the first, the second walks along the
tokens that are left, on top of what the first has bound (`walk_append`). A router may therefore
match the first part with a wildcard behind it and hand the captured rest on
(`matchPath_nested`).
-/

namespace PathTemplate

theorem nextToken_take_succ (tokens : List String) (n : Nat) :
    nextToken (tokens.take (n + 1)) = nextToken tokens := by
  cases tokens <;> rfl

theorem tail_take_succ (tokens : List String) (n : Nat) :
    (tokens.take (n + 1)).tail = tokens.tail.take n := by
  cases tokens with
  | nil => simp
  | cons t ts => rfl

/-- **Sequencing.** -/
theorem walk_append {o : Options} {as bs : List Segment} {tokens : List String}
    (h : ∀ k < as.length, ¬ StopsAt o as tokens k) :
    walk o (as ++ bs) tokens =
      (walk o as (tokens.take as.length)).bind fun f =>
        (walk o bs (tokens.drop as.length)).map (Findings.after f.bindings) := by
  induction as generalizing tokens with
  | nil => simp [walk, Findings.after_nil]
  | cons s as ih =>
    have hnext := nextToken_take_succ tokens as.length
    by_cases hp : s.Passes (nextToken tokens)
    · have hp' : s.Passes (nextToken (tokens.take (as.length + 1))) := by rwa [hnext]
      have hrest : ∀ k < as.length, ¬ StopsAt o as tokens.tail k := by
        intro k hk hs
        exact h (k + 1) (by simpa using hk) (stopsAt_succ.mpr ⟨hp, hs⟩)
      rw [List.cons_append, walk_cons_of_passes hp, ih hrest, List.length_cons,
        walk_cons_of_passes hp', hnext, tail_take_succ, List.drop_tail]
      cases walk o as (tokens.tail.take as.length) with
      | none => rfl
      | some f => cases walk o bs (tokens.drop (as.length + 1)) <;> simp [Findings.after]
    · have hc : ¬ s.Captures o (nextToken tokens) :=
        fun hc => h 0 (by simp) (stopsAt_zero.mpr hc)
      have hnone : walk o (s :: as) (tokens.take (as.length + 1)) = none :=
        walk_cons_of_refuses (by rwa [hnext]) (by rwa [hnext])
      rw [List.cons_append, walk_cons_of_refuses hp hc, List.length_cons, hnone]
      rfl

/-- What was bound first acts as a seed. -/
theorem Findings.toMatch_after (seed : Params) (bs : List (String × String)) (f : Findings) :
    (f.after bs).toMatch seed = f.toMatch (Findings.toMatch seed { bindings := bs }).params := by
  simp [Findings.toMatch, Findings.after, List.foldl_append]

/-- **Sequencing of matches.** The segments in front take one token each, and what they bind is the
seed for the others. -/
theorem matchTokens_append_of_not_stopsAt {o : Options} {as bs : List Segment}
    {tokens : List String} (h : ∀ k < as.length, ¬ StopsAt o as tokens k) (seed : Params) :
    matchTokens o (as ++ bs) tokens seed =
      (matchTokens o as (tokens.take as.length) seed).bind fun m =>
        matchTokens o bs (tokens.drop as.length) m.params := by
  simp only [matchTokens, walk_append h]
  cases walk o as (tokens.take as.length) with
  | none => rfl
  | some f =>
    simp only [Option.bind_some, Option.map_some, Option.map_map]
    congr 1
    funext g
    exact Findings.toMatch_after seed f.bindings g

/-! ## Segments for one token -/

/-- A literal, or a parameter for a single token. -/
def Segment.takesOne : Segment → Bool
  | literal _ => true
  | wildcard _ => false
  | param _ a => !a.takesRest

theorem Segment.not_captures_of_takesOne {o : Options} {token : String} {s : Segment}
    (h : s.takesOne = true) : ¬ s.Captures o token := by
  cases s with
  | literal text => exact id
  | wildcard lead => exact absurd h (by simp [takesOne])
  | param name a =>
    cases a with
    | one | zeroOrOne => exact id
    | oneOrMore | zeroOrMore => exact absurd h (by simp [takesOne, Arity.takesRest])

theorem not_stopsAt_of_takesOne {o : Options} {segments : List Segment} {tokens : List String}
    (h : ∀ s ∈ segments, s.takesOne = true) {k : Nat} (hk : k < segments.length) :
    ¬ StopsAt o segments tokens k := by
  rintro ⟨-, ⟨s, hs, hc⟩ | ⟨he, -⟩⟩
  · exact Segment.not_captures_of_takesOne (h s (List.mem_of_getElem? hs)) hc
  · omega

/-- What a bare wildcard captures: the tokens that are left, if there are any. -/
def leftRest (left : List String) : Option String :=
  if left = [] then none else some (Path.ofTokens left)

theorem walk_bare_wildcard {o : Options} {left : List String} (h : ∀ t ∈ left, Path.IsToken t) :
    walk o [.wildcard ""] left = some { rest := leftRest left } := by
  cases left with
  | nil => rfl
  | cons t ts =>
    have ht : t ≠ "" := (h t (by simp)).1
    have hc : (Segment.wildcard "").Captures o (nextToken (t :: ts)) := ⟨ht, ht, Or.inr rfl⟩
    rw [walk_cons_of_captures hc, leftRest, if_neg (List.cons_ne_nil t ts), Path.ofTokens_eq]
    rfl

/-- Without tokens the path that they make is the root. -/
theorem leftRest_getD (left : List String) : (leftRest left).getD "/" = Path.ofTokens left := by
  cases left <;> rfl

/-! ## Nested routers -/

theorem segments_append_slash (a b : String) :
    (Template.ofString (a ++ "/" ++ b)).segments =
      (Template.ofString a).segments ++ (Template.ofString b).segments := by
  simp only [Template.segments_ofString, Path.tokens_append_slash, List.map_append]

theorem segments_append_star (a : String) :
    (Template.ofString (a ++ "/*")).segments =
      (Template.ofString a).segments ++ [.wildcard ""] := by
  have h : a ++ "/*" = a ++ "/" ++ "*" := by rw [String.append_assoc]; rfl
  rw [h, segments_append_slash]
  rfl

theorem matchPath_eq (path text : String) (seed : Params) (o : Options) :
    matchPath path text seed o =
      (walk o (Template.ofString text).segments (Path.tokens path)).map
        (Findings.toMatch seed) := rfl

theorem matchPath_eq_matchTokens (path text : String) (seed : Params) (o : Options) :
    matchPath path text seed o =
      matchTokens o (Template.ofString text).segments (Path.tokens path) seed := rfl

section Nested

variable {path a b : String} {seed : Params} {o : Options}
  (ha : ∀ s ∈ (Template.ofString a).segments, s.takesOne = true)

include ha

theorem matchPath_slash :
    matchPath path (a ++ "/" ++ b) seed o =
      (matchTokens o (Template.ofString a).segments
          ((Path.tokens path).take (Template.ofString a).segments.length) seed).bind fun m =>
        matchTokens o (Template.ofString b).segments
          ((Path.tokens path).drop (Template.ofString a).segments.length) m.params := by
  rw [matchPath_eq_matchTokens, segments_append_slash,
    matchTokens_append_of_not_stopsAt fun k => not_stopsAt_of_takesOne ha]

theorem matchPath_star :
    matchPath path (a ++ "/*") seed o =
      (matchTokens o (Template.ofString a).segments
          ((Path.tokens path).take (Template.ofString a).segments.length) seed).map fun m =>
        { params := m.params
          rest := leftRest ((Path.tokens path).drop (Template.ofString a).segments.length) } := by
  rw [matchPath_eq_matchTokens, segments_append_star,
    matchTokens_append_of_not_stopsAt fun k => not_stopsAt_of_takesOne ha]
  cases matchTokens o (Template.ofString a).segments
      ((Path.tokens path).take (Template.ofString a).segments.length) seed with
  | none => rfl
  | some m =>
    rw [Option.bind_some, Option.map_some, matchTokens,
      walk_bare_wildcard fun _ => Path.isToken_of_mem_drop_tokens]
    rfl

/-- What the wildcard has left is matched as it would have been in place. -/
theorem matchPath_rest {m : Match} (hm : matchPath path (a ++ "/*") seed o = some m) :
    matchPath (m.rest.getD "/") b m.params o = matchPath path (a ++ "/" ++ b) seed o := by
  rw [matchPath_star ha, Option.map_eq_some_iff] at hm
  obtain ⟨n, hn, rfl⟩ := hm
  rw [matchPath_slash ha, hn, Option.bind_some, matchPath_eq_matchTokens, leftRest_getD,
    Path.tokens_ofTokens fun _ => Path.isToken_of_mem_drop_tokens]

theorem matchPath_slash_eq_none (hm : matchPath path (a ++ "/*") seed o = none) :
    matchPath path (a ++ "/" ++ b) seed o = none := by
  rw [matchPath_star ha, Option.map_eq_none_iff] at hm
  rw [matchPath_slash ha, hm, Option.bind_none]

end Nested

/-- **Nested routers.** Matching the first part with a wildcard behind it, and then what the
wildcard captured with the second part, on top of the parameters bound so far, comes to the same
as matching both at once. -/
theorem matchPath_nested (path a b : String) (seed : Params) (o : Options)
    (ha : ∀ s ∈ (Template.ofString a).segments, s.takesOne = true) :
    matchPath path (a ++ "/" ++ b) seed o =
      (matchPath path (a ++ "/*") seed o).bind fun m =>
        matchPath (m.rest.getD "/") b m.params o := by
  cases hm : matchPath path (a ++ "/*") seed o with
  | none => rw [matchPath_slash_eq_none ha hm, Option.bind_none]
  | some m => rw [Option.bind_some, matchPath_rest ha hm]

/-- A captured rest is split again by the second part; and where the path ends inside the first
part, no rest is captured, and the second part meets the root. -/
theorem matchPath_nested_shop :
    (∀ s ∈ (Template.ofString "/shop/:kind/:item?").segments, s.takesOne = true) ∧
    (matchPath "/shop/a%20b" ("/shop/:kind/:item?" ++ "/" ++ ":item*") {} {} =
        (matchPath "/shop/a%20b" ("/shop/:kind/:item?" ++ "/*") {} {}).bind (fun m =>
          matchPath (m.rest.getD "/") ":item*" m.params {}) ∧
      matchPath "/shop/a%20b" ("/shop/:kind/:item?" ++ "/*") {} {} =
        some { params := .ofList [("kind", "a b"), ("item", "")] } ∧
      matchPath "/shop/a%20b" ("/shop/:kind/:item?" ++ "/" ++ ":item*") {} {} =
        some { params := .ofList [("kind", "a b"), ("item", "")] }) ∧
    matchPath "/shop/a/7/x/y%2Fz/w" ("/shop/:kind/:item?" ++ "/*") {} {} =
      some { params := .ofList [("kind", "a"), ("item", "7")], rest := some "/x/y%2Fz/w" } ∧
    matchPath "/shop/a/7/x/y%2Fz/w" ("/shop/:kind/:item?" ++ "/" ++ ":item/:more+") {} {} =
      some { params := .ofList [("kind", "a"), ("item", "x"), ("more", "y/z/w")] } := by
  have ha : ∀ s ∈ (Template.ofString "/shop/:kind/:item?").segments, s.takesOne = true := by decide
  have hshort : matchPath "/shop/a%20b" ("/shop/:kind/:item?" ++ "/*") {} {} =
      some { params := .ofList [("kind", "a b"), ("item", "")] } := by decide
  have hlong : matchPath "/shop/a/7/x/y%2Fz/w" ("/shop/:kind/:item?" ++ "/*") {} {} =
      some { params := .ofList [("kind", "a"), ("item", "7")], rest := some "/x/y%2Fz/w" } := by
    decide
  refine ⟨ha, ⟨matchPath_nested _ _ _ _ _ ha, hshort, ?_⟩, hlong, ?_⟩
  · rw [matchPath_nested _ _ _ _ _ ha, hshort]
    decide
  · rw [matchPath_nested _ _ _ _ _ ha, hlong]
    decide

end PathTemplate
