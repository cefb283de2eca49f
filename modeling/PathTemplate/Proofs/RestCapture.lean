import PathTemplate.Proofs.Presence

/-!
When a template can capture a rest. Some path is matched with a captured rest exactly if a wildcard
may capture and every segment in front of it can take a token (`exists_rest_iff`). `capturesRest`
asks for a wildcard only; `capturesRest_exact_iff` says where this comes to the same.
-/

namespace PathTemplate

/-- A wildcard may capture the rest, and the walk can get there while there are tokens. -/
def CanCapture (o : Options) (segments : List Segment) : Prop :=
  ∃ before after, segments = before ++ after ∧ (∀ s ∈ before, s.admitsToken = true) ∧
    ∃ s ∈ after.head?, s.mayCapture o = true

instance (o : Options) (segments : List Segment) : Decidable (CanCapture o segments) :=
  decidable_of_iff _ exists_split_iff.symm

theorem canCapture_of_walk {o : Options} {segments : List Segment} {tokens : List String}
    {f : Findings} {rest : String} (ht : ∀ t ∈ tokens, t ≠ "")
    (h : walk o segments tokens = some f) (hrest : f.rest = some rest) :
    CanCapture o segments := by
  obtain ⟨before, after, bs, e, rfl, hbefore, -, -, hend, rfl⟩ := exists_ending ht h
  cases hend with
  | @captured lead rest' after hrule =>
    have hmay : (Segment.wildcard lead).mayCapture o = true := decide_eq_true hrule
    exact ⟨before, _, rfl, hbefore, _, rfl, hmay⟩
  | namedRest | pathEnd => simp [Findings.after] at hrest

/-- **Captured rests.** -/
theorem exists_rest_iff (text : String) (o : Options) :
    (∃ path m, matchPath path text {} o = some m ∧ m.rest.isSome = true) ↔
      CanCapture o (Template.ofString text).segments := by
  constructor
  · rintro ⟨path, m, hm, hsome⟩
    rw [matchPath_eq, Option.map_eq_some_iff] at hm
    obtain ⟨f, hf, rfl⟩ := hm
    obtain ⟨rest, hrest⟩ := Option.isSome_iff_exists.mp hsome
    have ht : ∀ t ∈ Path.tokens path, t ≠ "" := fun _ => Path.ne_empty_of_mem_tokens
    exact canCapture_of_walk ht hf hrest
  · rintro ⟨before, after, hsplit, hbefore, hcapture⟩
    obtain ⟨path, rest, bs, -, hmatch⟩ := exists_match_captures hsplit hbefore hcapture
    exact ⟨path, _, hmatch {}, rfl⟩

/-- An empty literal lets the walk go on at the end of the path only. -/
example : ¬ CanCapture {} (Template.ofString "/?/*").segments := by decide

/-- Without a wildcard nothing is captured. -/
theorem any_isWildcard_of_canCapture {o : Options} {segments : List Segment}
    (h : CanCapture o segments) : segments.any Segment.isWildcard = true := by
  obtain ⟨before, after, rfl, -, s, hs, hmay⟩ := h
  obtain ⟨lead, rfl, -⟩ := Segment.mayCapture_iff.mp hmay
  have hmem : Segment.wildcard lead ∈ after := List.mem_of_mem_head? hs
  exact List.any_eq_true.mpr ⟨_, List.mem_append_right before hmem, rfl⟩

/-- **When `capturesRest` is exact.** It tells whether some match captures a rest exactly if there
is no wildcard, or one that may capture has in front of it only segments that can take a token. -/
theorem capturesRest_exact_iff (text : String) (o : Options) :
    ((Template.ofString text).capturesRest = true ↔
      ∃ path m, matchPath path text {} o = some m ∧ m.rest.isSome = true) ↔
    ((Template.ofString text).capturesRest = false ∨
      CanCapture o (Template.ofString text).segments) := by
  rw [exists_rest_iff]
  have hsound : CanCapture o (Template.ofString text).segments →
      (Template.ofString text).capturesRest = true := any_isWildcard_of_canCapture
  constructor
  · intro hexact
    cases hw : (Template.ofString text).capturesRest with
    | false => exact Or.inl rfl
    | true => exact Or.inr (hexact.mp hw)
  · rintro (hfalse | hcan)
    · exact ⟨fun hw => absurd hw (by simp [hfalse]), hsound⟩
    · exact ⟨fun _ => hcan, hsound⟩

/-- A wildcard behind a named rest never captures. -/
theorem not_capturesRest_exact :
    ¬ ∀ (text : String) (o : Options), (Template.ofString text).capturesRest = true ↔
      ∃ path m, matchPath path text {} o = some m ∧ m.rest.isSome = true := by
  intro h
  have hwildcard : (Template.ofString "/:a+/*").capturesRest = true := by decide
  have hcan := (exists_rest_iff "/:a+/*" {}).mp ((h "/:a+/*" {}).mp hwildcard)
  exact absurd hcan (by decide)

end PathTemplate
