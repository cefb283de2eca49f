import PathTemplate.Proofs.Bindings
import PathTemplate.Proofs.Stops

/-!
What the text in front of the star of a wildcard does. Under the lenient rule a wildcard captures
unless this text is the token that it meets, and then it is a literal (`lenient_wildcard`). The
strict rule takes away the matches that a wildcard with such a text captures, and no others; under
it each wildcard of this kind is a literal (`strict_refines_lenient`).
-/

namespace PathTemplate

/-! ## A wildcard that equals its token -/

theorem walk_wildcard_eq_literal {o : Options} {segments : List Segment} {tokens : List String}
    {lead : String} (h : lead = nextToken tokens) :
    walk o (.wildcard lead :: segments) tokens = walk o (.literal lead :: segments) tokens := by
  have hwildcard : (Segment.wildcard lead).Passes (nextToken tokens) := h
  have hliteral : (Segment.literal lead).Passes (nextToken tokens) := h
  rw [walk_cons_of_passes hwildcard, walk_cons_of_passes hliteral]
  rfl

/-- **Equal text.** Where a wildcard equals its token, a literal may stand for it. -/
theorem walk_set_literal {o : Options} {segments : List Segment} {tokens : List String} {k : Nat}
    {lead : String} (hs : segments[k]? = some (.wildcard lead)) (hlead : lead = tokenAt tokens k) :
    walk o (segments.set k (.literal lead)) tokens = walk o segments tokens := by
  induction segments generalizing tokens k with
  | nil => rfl
  | cons s segments ih =>
    cases k with
    | zero =>
      obtain rfl : s = .wildcard lead := Option.some.inj hs
      rw [tokenAt_zero] at hlead
      rw [List.set_cons_zero, walk_wildcard_eq_literal hlead]
    | succ k =>
      rw [tokenAt_succ] at hlead
      rw [List.set_cons_succ, walk, walk, ih hs hlead]

/-! ## The lenient rule -/

section Lenient

variable {o : Options} {segments : List Segment} {tokens : List String} {k : Nat} {lead : String}

theorem stopsAt_of_lenient (ho : o.leads = .lenient) (ht : ∀ t ∈ tokens, t ≠ "")
    (hs : segments[k]? = some (.wildcard lead)) (hlen : k < tokens.length)
    (hpass : ∀ i < k, PassesAt segments tokens i) (hlead : lead ≠ tokenAt tokens k) :
    StopsAt o segments tokens k := by
  have hne : tokenAt tokens k ≠ "" := by
    rw [ne_eq, tokenAt_eq_empty_iff ht]
    omega
  have hcaptures : (Segment.wildcard lead).Captures o (tokenAt tokens k) :=
    ⟨hne, Ne.symm hlead, Or.inl ho⟩
  exact ⟨hpass, Or.inl ⟨_, hs, hcaptures⟩⟩

end Lenient

/-- **Lenient wildcards.** A wildcard that the walk gets to, and that does not equal the token it
meets, captures the tokens that are left, whatever its text is. Where it equals the token it is a
literal. -/
theorem lenient_wildcard (t : Template) (path : String) (seed : Params) (k : Nat) (lead : String)
    (hlenient : t.options.leads = .lenient) (hs : t.segments[k]? = some (.wildcard lead))
    (hlen : k < (Path.tokens path).length)
    (hpass : ∀ i < k, PassesAt t.segments (Path.tokens path) i) :
    (lead ≠ tokenAt (Path.tokens path) k → ∃ m, t.resolve path seed = some m ∧
      m.rest = some ("/" ++ "/".intercalate ((Path.tokens path).drop k))) ∧
    (lead = tokenAt (Path.tokens path) k →
      t.resolve path seed =
        { t with segments := t.segments.set k (.literal lead) }.resolve path seed) := by
  constructor
  · intro hlead
    have ht : ∀ t ∈ Path.tokens path, t ≠ "" := fun t ht => (Path.isToken_of_mem_tokens ht).1
    have hk := stopsAt_of_lenient hlenient ht hs hlen hpass hlead
    refine ⟨_, Template.resolve_eq_some_iff.mpr ⟨k, hk, rfl⟩, ?_⟩
    rw [Findings.rest_toMatch, rest_findingsAt_eq_some_iff]
    exact ⟨⟨lead, hs⟩, (Path.ofTokens_eq _).symm⟩
  · intro hlead
    simp only [Template.resolve, matchTokens, walk_set_literal hs hlead]

/-- The wildcard captures, and the parameter behind it is not met. -/
theorem lenient_wildcard_guide :
    (Template.ofString "/docs/files*/:id").segments[1]? = some (.wildcard "files") ∧
    1 < (Path.tokens "/docs/guide/intro").length ∧
    ∃ m, (Template.ofString "/docs/files*/:id").resolve "/docs/guide/intro" {} = some m ∧
      m.rest = some "/guide/intro" := by
  have hpass : ∀ i < 1, PassesAt (Template.ofString "/docs/files*/:id").segments
      (Path.tokens "/docs/guide/intro") i := by
    intro i hi
    obtain rfl : i = 0 := by omega
    have hdocs : "docs" = tokenAt (Path.tokens "/docs/guide/intro") 0 := by decide
    exact ⟨.literal "docs", by decide, hdocs⟩
  refine ⟨by decide, by decide, ?_⟩
  exact (lenient_wildcard (Template.ofString "/docs/files*/:id") "/docs/guide/intro" {} 1 "files"
    rfl (by decide) (by decide) hpass).1 (by decide)

/-- A wildcard whose text is the token does not capture it. -/
theorem not_lenient_captures_all :
    ¬ ∀ (t : Template) (path : String) (seed : Params) (k : Nat) (lead : String),
      t.options.leads = .lenient → t.segments[k]? = some (.wildcard lead) →
      (∀ i < k, ∀ s, t.segments[i]? = some s → s.isWildcard = false) →
      k < (Path.tokens path).length →
      (∀ i < k, PassesAt t.segments (Path.tokens path) i) →
      ∃ m, t.resolve path seed = some m ∧
        m.rest = some ("/" ++ "/".intercalate ((Path.tokens path).drop k)) := by
  intro h
  obtain ⟨m, hm, hrest⟩ := h (Template.ofString "/files*/:id") "/files/7" {} 0 "files" rfl
    (by decide) (fun i hi => absurd hi (by omega)) (by decide) (fun i hi => absurd hi (by omega))
  have hbound : (Template.ofString "/files*/:id").resolve "/files/7" {} =
      some { params := Std.ExtTreeMap.ofList [("id", "7")] } := by decide
  obtain rfl := Option.some.inj (hm.symm.trans hbound)
  simp at hrest

/-! ## The strict rule -/

/-- The template under another rule for leading texts. -/
def Template.withLeads (t : Template) (r : LeadRule) : Template :=
  { t with options := { t.options with leads := r } }

namespace Segment

/-- A wildcard with some text in front of its star. -/
def hasLead : Segment → Bool
  | wildcard lead => lead ≠ ""
  | _ => false

/-- What the strict rule makes of a segment: a wildcard with such a text is a literal. -/
def strictForm : Segment → Segment
  | wildcard lead => if lead = "" then wildcard lead else literal lead
  | s => s

section Strict

variable {d : Decoding} {s : Segment} {token : String}

theorem exists_lead_of_hasLead (h : s.hasLead = true) :
    ∃ lead, s = .wildcard lead ∧ lead ≠ "" := by
  cases s with
  | literal text | param name a => exact absurd h (by simp [hasLead])
  | wildcard lead => exact ⟨lead, rfl, of_decide_eq_true h⟩

/-- The rules differ in wildcards with a leading text only. -/
theorem captures_strict_iff :
    s.Captures ⟨d, .strict⟩ token ↔ s.Captures ⟨d, .lenient⟩ token ∧ s.hasLead = false := by
  cases s with
  | literal text => simp [Captures]
  | wildcard lead => simp [Captures, hasLead, and_assoc]
  | param name a => cases a <;> simp [Captures, hasLead]

theorem strictForm_of_hasLead_eq_false (h : s.hasLead = false) : s.strictForm = s := by
  cases s with
  | literal text | param name a => rfl
  | wildcard lead => exact if_pos (by simpa [hasLead] using h)

end Strict
end Segment

section Strict

variable {d : Decoding} {segments : List Segment} {tokens : List String} {k : Nat}

theorem stopsAt_strict_iff :
    StopsAt ⟨d, .strict⟩ segments tokens k ↔
      StopsAt ⟨d, .lenient⟩ segments tokens k ∧ ∀ s ∈ segments[k]?, s.hasLead = false := by
  constructor
  · rintro ⟨hpass, ⟨s, hs, hc⟩ | ⟨rfl, hlen⟩⟩
    · obtain ⟨hc, hlead⟩ := Segment.captures_strict_iff.mp hc
      refine ⟨⟨hpass, Or.inl ⟨s, hs, hc⟩⟩, fun u hu => ?_⟩
      cases hs.symm.trans hu
      exact hlead
    · exact ⟨⟨hpass, Or.inr ⟨rfl, hlen⟩⟩, by simp⟩
  · rintro ⟨⟨hpass, ⟨s, hs, hc⟩ | hend⟩, hlead⟩
    · exact ⟨hpass, Or.inl ⟨s, hs, Segment.captures_strict_iff.mpr ⟨hc, hlead s hs⟩⟩⟩
    · exact ⟨hpass, Or.inr hend⟩

theorem exists_lead_of_not_stopsAt_strict (hk : StopsAt ⟨d, .lenient⟩ segments tokens k)
    (hstrict : ¬ StopsAt ⟨d, .strict⟩ segments tokens k) :
    ∃ lead, segments[k]? = some (.wildcard lead) ∧ lead ≠ "" := by
  cases hs : segments[k]? with
  | none => exact absurd (stopsAt_strict_iff.mpr ⟨hk, by simp [hs]⟩) hstrict
  | some s =>
    cases hl : s.hasLead with
    | false => exact absurd (stopsAt_strict_iff.mpr ⟨hk, by simp [hs, hl]⟩) hstrict
    | true =>
      obtain ⟨lead, rfl, hlead⟩ := Segment.exists_lead_of_hasLead hl
      exact ⟨lead, rfl, hlead⟩

theorem walk_strict_wildcard {lead : String} (hlead : lead ≠ "") :
    walk ⟨d, .strict⟩ (.wildcard lead :: segments) tokens =
      walk ⟨d, .strict⟩ (.literal lead :: segments) tokens := by
  by_cases hp : lead = nextToken tokens
  · exact walk_wildcard_eq_literal hp
  · have hwildcard : ¬ (Segment.wildcard lead).Passes (nextToken tokens) := hp
    have hliteral : ¬ (Segment.literal lead).Passes (nextToken tokens) := hp
    have hstrict : ¬ (Segment.wildcard lead).Captures ⟨d, .strict⟩ (nextToken tokens) := by
      rintro ⟨-, -, hr | hl⟩
      · simp at hr
      · exact hlead hl
    rw [walk_cons_of_refuses hwildcard hstrict, walk_cons_of_refuses hliteral id]

/-- **Strict wildcards are literals.** -/
theorem walk_map_strictForm :
    walk ⟨d, .strict⟩ (segments.map Segment.strictForm) tokens =
      walk ⟨d, .strict⟩ segments tokens := by
  induction segments generalizing tokens with
  | nil => rfl
  | cons s segments ih =>
    rw [List.map_cons]
    cases hl : s.hasLead with
    | false => rw [Segment.strictForm_of_hasLead_eq_false hl, walk, walk, ih]
    | true =>
      obtain ⟨lead, rfl, hlead⟩ := Segment.exists_lead_of_hasLead hl
      have hform : (Segment.wildcard lead).strictForm = .literal lead := if_neg hlead
      rw [hform, walk_strict_wildcard hlead, walk, walk, ih]

end Strict

/-- **Strict refines lenient.** A match under the strict rule is the same match under the lenient
one; a match that only the lenient rule yields is captured by a wildcard with a leading text; and
under the strict rule literals may stand for all wildcards of this kind. -/
theorem strict_refines_lenient (t : Template) (path : String) (seed : Params) :
    (∀ m, (t.withLeads .strict).resolve path seed = some m →
      (t.withLeads .lenient).resolve path seed = some m) ∧
    (∀ m, (t.withLeads .lenient).resolve path seed = some m →
      (t.withLeads .strict).resolve path seed = none →
      ∃ k lead, StopsAt (t.withLeads .lenient).options t.segments (Path.tokens path) k ∧
        t.segments[k]? = some (.wildcard lead) ∧ lead ≠ "" ∧
        m.rest = some (Path.ofTokens ((Path.tokens path).drop k))) ∧
    { t.withLeads .strict with segments := t.segments.map Segment.strictForm }.resolve path seed =
      (t.withLeads .strict).resolve path seed := by
  refine ⟨?_, ?_, ?_⟩
  · intro m hm
    obtain ⟨k, hk, rfl⟩ := Template.resolve_eq_some_iff.mp hm
    exact Template.resolve_eq_some_iff.mpr ⟨k, (stopsAt_strict_iff.mp hk).1, rfl⟩
  · intro m hm hnone
    obtain ⟨k, hk, rfl⟩ := Template.resolve_eq_some_iff.mp hm
    have hstrict : ¬ StopsAt ⟨t.options.decoding, .strict⟩ t.segments (Path.tokens path) k := by
      intro hk'
      have hsome : (t.withLeads .strict).resolve path seed = some _ :=
        Template.resolve_eq_some_iff.mpr ⟨k, hk', rfl⟩
      simp [hsome] at hnone
    obtain ⟨lead, hs, hlead⟩ := exists_lead_of_not_stopsAt_strict hk hstrict
    refine ⟨k, lead, hk, hs, hlead, ?_⟩
    rw [Findings.rest_toMatch, rest_findingsAt_eq_some_iff]
    exact ⟨⟨lead, hs⟩, rfl⟩
  · simp only [Template.resolve, matchTokens, Template.withLeads, walk_map_strictForm]

/-- A match that the strict rule keeps, and one that it takes away. -/
theorem strict_refines_lenient_docs :
    (∃ m, ((Template.ofString "/docs/v*/*").withLeads .lenient).resolve "/docs/v/a" {} = some m ∧
      ((Template.ofString "/docs/v*/*").withLeads .strict).resolve "/docs/v/a" {} = some m) ∧
    ∃ m, ((Template.ofString "/docs/v*/*").withLeads .lenient).resolve "/docs/a/b" {} = some m ∧
      ((Template.ofString "/docs/v*/*").withLeads .strict).resolve "/docs/a/b" {} = none ∧
      m.rest = some "/a/b" ∧
      ∃ k lead, (Template.ofString "/docs/v*/*").segments[k]? = some (.wildcard lead) ∧
        lead ≠ "" ∧ Path.ofTokens ((Path.tokens "/docs/a/b").drop k) = "/a/b" := by
  have hkept : ((Template.ofString "/docs/v*/*").withLeads .strict).resolve "/docs/v/a" {} =
      some { rest := some "/a" } := by decide
  have hlenient : ((Template.ofString "/docs/v*/*").withLeads .lenient).resolve "/docs/a/b" {} =
      some { rest := some "/a/b" } := by decide
  have hstrict : ((Template.ofString "/docs/v*/*").withLeads .strict).resolve "/docs/a/b" {} =
      none := by decide
  obtain ⟨hsame, -, -⟩ := strict_refines_lenient (Template.ofString "/docs/v*/*") "/docs/v/a" {}
  obtain ⟨-, hlost, -⟩ := strict_refines_lenient (Template.ofString "/docs/v*/*") "/docs/a/b" {}
  obtain ⟨k, lead, -, hs, hlead, hrest⟩ := hlost _ hlenient hstrict
  exact ⟨⟨_, hsame _ hkept, hkept⟩, _, hlenient, hstrict, rfl, k, lead, hs, hlead,
    (Option.some.inj hrest).symm⟩

end PathTemplate
