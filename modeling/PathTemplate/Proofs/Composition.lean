import PathTemplate.Proofs.Nesting

/-!
Templates joined by a slash, whatever the first of them holds. A walk that is captured inside the
first template never gets to the second (`walk_append_of_capturedIn`). Any other walk may be cut in
two where the first template ends, and what the first part binds is the seed of the second
(`matchTokens_append`). `matchPath_append` puts the two cases together.
-/

namespace PathTemplate

/-- Some segment captures, and all before it pass. -/
def CapturedIn (o : Options) (segments : List Segment) (tokens : List String) : Prop :=
  ∃ k, CapturesAt o segments tokens k ∧ ∀ i < k, PassesAt segments tokens i

section Append

variable {o : Options} {s : Segment} {as bs : List Segment} {tokens : List String}

theorem not_capturedIn_nil : ¬ CapturedIn o [] tokens := by
  rintro ⟨k, ⟨s, hs, -⟩, -⟩
  simp at hs

/-- The first segment captures, or it passes and the rest of them capture what is left. -/
theorem capturedIn_cons :
    CapturedIn o (s :: as) tokens ↔
      s.Captures o (nextToken tokens) ∨
        s.Passes (nextToken tokens) ∧ CapturedIn o as tokens.tail := by
  constructor
  · rintro ⟨k, hc, hpass⟩
    cases k with
    | zero => exact Or.inl (capturesAt_zero.mp hc)
    | succ k =>
      obtain ⟨hp, hpass⟩ := forall_passesAt_succ.mp hpass
      exact Or.inr ⟨hp, k, capturesAt_succ.mp hc, hpass⟩
  · rintro (hc | ⟨hp, k, hc, hpass⟩)
    · exact ⟨0, capturesAt_zero.mpr hc, fun i hi => absurd hi (Nat.not_lt_zero i)⟩
    · exact ⟨k + 1, capturesAt_succ.mpr hc, forall_passesAt_succ.mpr ⟨hp, hpass⟩⟩

instance instDecidableCapturedIn (o : Options) :
    (segments : List Segment) → (tokens : List String) → Decidable (CapturedIn o segments tokens)
  | [], _ => isFalse not_capturedIn_nil
  | _ :: segments, tokens =>
    have := instDecidableCapturedIn o segments tokens.tail
    decidable_of_iff _ capturedIn_cons.symm

/-- To stop in front of the last segment is to be captured. -/
theorem capturedIn_of_stopsAt {k : Nat} (hk : StopsAt o as tokens k) (hlt : k < as.length) :
    CapturedIn o as tokens := by
  rcases hk.2 with hc | ⟨hend, -⟩
  · exact ⟨k, hc, hk.1⟩
  · omega

/-- **Captured walks.** Nothing behind a capture is looked at. -/
theorem walk_append_of_capturedIn (h : CapturedIn o as tokens) :
    walk o (as ++ bs) tokens = walk o as tokens := by
  induction as generalizing tokens with
  | nil => exact absurd h not_capturedIn_nil
  | cons s as ih =>
    rw [List.cons_append]
    rcases capturedIn_cons.mp h with hc | ⟨hp, h⟩
    · rw [walk_cons_of_captures hc, walk_cons_of_captures hc]
    · rw [walk_cons_of_passes hp, walk_cons_of_passes hp, ih h]

/-- **Walks that are not captured.** The segments in front take one token each, and what they bind
is the seed for the others. -/
theorem matchTokens_append (h : ¬ CapturedIn o as tokens) (seed : Params) :
    matchTokens o (as ++ bs) tokens seed =
      (matchTokens o as (tokens.take as.length) seed).bind fun m =>
        matchTokens o bs (tokens.drop as.length) m.params :=
  matchTokens_append_of_not_stopsAt (fun _ hlt hk => h (capturedIn_of_stopsAt hk hlt)) seed

end Append

/-- **Templates joined by a slash.** Their segments stand one behind the other. If the first
captures, the match is that of the first alone. If not, the first is matched with as many tokens as
it has segments, and the second with those that are left, on top of what the first has bound. -/
theorem matchPath_append (path a b : String) (seed : Params) (o : Options) :
    (Template.ofString (a ++ "/" ++ b)).segments =
      (Template.ofString a).segments ++ (Template.ofString b).segments ∧
    (CapturedIn o (Template.ofString a).segments (Path.tokens path) →
      matchPath path (a ++ "/" ++ b) seed o = matchPath path a seed o) ∧
    (¬ CapturedIn o (Template.ofString a).segments (Path.tokens path) →
      matchPath path (a ++ "/" ++ b) seed o =
        (matchTokens o (Template.ofString a).segments
          ((Path.tokens path).take (Template.ofString a).segments.length) seed).bind fun m =>
            matchTokens o (Template.ofString b).segments
              ((Path.tokens path).drop (Template.ofString a).segments.length) m.params) := by
  refine ⟨segments_append_slash a b, ?_, ?_⟩
  · intro h
    simp only [matchPath_eq, segments_append_slash, walk_append_of_capturedIn h]
  · intro h
    rw [matchPath_eq_matchTokens, segments_append_slash, matchTokens_append h]

/-- A named rest takes the whole path, so that the name bound behind it keeps its value; and a path
that ends inside the first template leaves no token for the second. -/
theorem matchPath_append_docs :
    (CapturedIn {} (Template.ofString "/docs/:page+").segments (Path.tokens "/docs/a%20b/c") ∧
      matchPath "/docs/a%20b/c" ("/docs/:page+" ++ "/" ++ "/:page") {} {} =
        matchPath "/docs/a%20b/c" "/docs/:page+" {} {} ∧
      (matchPath "/docs/a%20b/c" "/docs/:page+" {} {}).bind (·.get? "page") = some "a b/c") ∧
    (¬ CapturedIn {} (Template.ofString "/docs*/:page?").segments (Path.tokens "/docs") ∧
      matchPath "/docs" ("/docs*/:page?" ++ "/" ++ "/:part*") {} {} =
        (matchTokens {} (Template.ofString "/docs*/:page?").segments ["docs"] {}).bind (fun m =>
          matchTokens {} (Template.ofString "/:part*").segments [] m.params) ∧
      (matchPath "/docs" ("/docs*/:page?" ++ "/" ++ "/:part*") {} {}).bind (·.get? "part") =
        some "") := by
  refine ⟨⟨by decide, ?_, by decide⟩, by decide, ?_, by decide⟩
  · exact (matchPath_append "/docs/a%20b/c" "/docs/:page+" "/:page" {} {}).2.1 (by decide)
  · exact (matchPath_append "/docs" "/docs*/:page?" "/:part*" {} {}).2.2 (by decide)

end PathTemplate
