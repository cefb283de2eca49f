import Mathlib.Data.List.Forall2
import PathTemplate.Match.Walk
import PathTemplate.Proofs.Tokens

/-!
Making parameters optional. A relaxed parameter does without a token where the original insists on
one, and takes tokens just as the original does. So two walks that differ in relaxed parameters
stay together, unless the original one fails for want of a token (`walk_relaxed`): what a template
matches it matches as well when relaxed, with the same result, and on paths that are long enough
nothing changes (`resolve_relaxed`).
-/

namespace PathTemplate

namespace Arity

/-- The arity that does without a token as well. -/
def relaxed : Arity → Arity
  | one | zeroOrOne => zeroOrOne
  | oneOrMore | zeroOrMore => zeroOrMore

@[simp]
theorem acceptsNone_relaxed (a : Arity) : a.relaxed.acceptsNone = true := by
  cases a <;> rfl

@[simp]
theorem takesRest_relaxed (a : Arity) : a.relaxed.takesRest = a.takesRest := by
  cases a <;> rfl

end Arity

namespace Segment

/-- The segment is kept, or is a parameter that may keep its name and do without a token. -/
inductive RelaxesTo : Segment → Segment → Prop
  | same (s : Segment) : RelaxesTo s s
  | relaxed (name : String) (a : Arity) : RelaxesTo (param name a) (param name a.relaxed)

/-- **One step.** A relaxed segment meets its tokens in the same way, unless the original one is
left without a token. -/
theorem RelaxesTo.meet_eq {s r : Segment} (h : s.RelaxesTo r) (o : Options)
    (left : List String) :
    r.meet o left = s.meet o left ∨ s.meet o left = .refuse .missing ∧ nextToken left = "" := by
  cases h with
  | same => exact Or.inl rfl
  | relaxed name a =>
    by_cases hmissing : nextToken left = "" ∧ a.acceptsNone = false
    · exact Or.inr ⟨if_pos hmissing, hmissing.1⟩
    · have hrelaxed : ¬ (nextToken left = "" ∧ a.relaxed.acceptsNone = false) := by simp
      rw [meet, meet, if_neg hmissing, if_neg hrelaxed, Arity.takesRest_relaxed]
      exact Or.inl rfl

end Segment

/-- **The whole walk.** Relaxed segments find what the original ones find, unless these fail and
there are fewer tokens than segments. -/
theorem walk_relaxed (o : Options) {segments relaxed : List Segment}
    (h : List.Forall₂ Segment.RelaxesTo segments relaxed) {tokens : List String}
    (ht : ∀ t ∈ tokens, t ≠ "") :
    walk o relaxed tokens = walk o segments tokens ∨
      walk o segments tokens = none ∧ tokens.length < segments.length := by
  induction h generalizing tokens with
  | nil => exact Or.inl rfl
  | @cons s r segments relaxed hs _ ih =>
    have htail : ∀ t ∈ tokens.tail, t ≠ "" := fun t h => ht t (List.mem_of_mem_tail h)
    rcases hs.meet_eq o tokens with hmeet | ⟨hmissing, hempty⟩
    · rcases ih htail with hwalk | ⟨hnone, hlen⟩
      · exact Or.inl (by rw [walk, walk, hmeet, hwalk])
      · have hlen : tokens.length < (s :: segments).length := by
          rw [List.length_tail] at hlen
          rw [List.length_cons]
          omega
        -- What comes behind matters only if the walk goes on.
        cases hv : s.meet o tokens with
        | pass => exact Or.inr ⟨by rw [walk, hv]; exact hnone, hlen⟩
        | bind name value =>
          exact Or.inr ⟨by simp only [walk, hv, hnone, Option.map_none], hlen⟩
        | bindRest _ _ | capture _ | refuse _ => exact Or.inl (by rw [walk, walk, hmeet, hv])
    · cases tokens with
      | nil => exact Or.inr ⟨by rw [walk, hmissing], by simp⟩
      | cons t ts => exact absurd hempty (ht t (by simp))

/-- **Relaxing parameters.** Where some parameters of a template are relaxed, its matches stay as
they are. On a path with at least as many tokens as the template has segments, so do its
failures. -/
theorem resolve_relaxed (t : Template) (relaxed : List Segment)
    (h : List.Forall₂ Segment.RelaxesTo t.segments relaxed) (path : String) (seed : Params) :
    (∀ m, t.resolve path seed = some m →
      { t with segments := relaxed }.resolve path seed = some m) ∧
    (t.segments.length ≤ (Path.tokens path).length →
      { t with segments := relaxed }.resolve path seed = t.resolve path seed) := by
  simp only [Template.resolve, matchTokens]
  rcases walk_relaxed t.options h fun _ => Path.ne_empty_of_mem_tokens with
    hsame | ⟨hnone, hshort⟩
  · rw [hsame]
    exact ⟨fun _ hm => hm, fun _ => rfl⟩
  · refine ⟨?_, ?_⟩
    · intro m hm
      simp [hnone] at hm
    · intro hlen
      omega

/-- A match that is kept, and a path that both templates refuse at its first token. -/
theorem resolve_relaxed_shop :
    List.Forall₂ Segment.RelaxesTo (Template.ofString "/shop/:kind/:path+").segments
      (Template.ofString "/shop/:kind?/:path*").segments ∧
    (∃ m, (Template.ofString "/shop/:kind/:path+").resolve "/shop/cups/a%20b/c" {} = some m ∧
      (Template.ofString "/shop/:kind?/:path*").resolve "/shop/cups/a%20b/c" {} = some m ∧
      m.get? "path" = some "a b/c") ∧
    (Template.ofString "/shop/:kind/:path+").segments.length ≤
      (Path.tokens "/store/cups/x").length ∧
    (Template.ofString "/shop/:kind?/:path*").resolve "/store/cups/x" {} =
      (Template.ofString "/shop/:kind/:path+").resolve "/store/cups/x" {} := by
  have h : List.Forall₂ Segment.RelaxesTo (Template.ofString "/shop/:kind/:path+").segments
      (Template.ofString "/shop/:kind?/:path*").segments :=
    .cons (.same (.literal "shop"))
      (.cons (.relaxed "kind" .one) (.cons (.relaxed "path" .oneOrMore) .nil))
  have hm : (Template.ofString "/shop/:kind/:path+").resolve "/shop/cups/a%20b/c" {} =
      some { params := .ofList [("kind", "cups"), ("path", "a b/c")] } := by decide +kernel
  refine ⟨h, ⟨_, hm, ?_, by decide⟩, by decide, ?_⟩
  · exact (resolve_relaxed (Template.ofString "/shop/:kind/:path+") _ h "/shop/cups/a%20b/c" {}).1
      _ hm
  · exact (resolve_relaxed (Template.ofString "/shop/:kind/:path+") _ h "/store/cups/x" {}).2
      (by decide)

/-- On a shorter path the relaxed template may match alone. -/
example : matchPath "/shop" "/shop/:kind" {} {} = none ∧
    (matchPath "/shop" "/shop/:kind?" {} {}).isSome = true := by decide

end PathTemplate
