import PathTemplate.Proofs.Nesting
import PathTemplate.Proofs.Phases

/-!
When the presences that a template lists can be relied on. A listed parameter may be left out of a
match, because a wildcard before it captures the rest (`CanSkip`), and a required one may end up
with the empty text, because its name is bound again behind the end of the path (`CanBlank`).
`presence_reliable_iff` says that nothing else goes wrong, and that each of the two does happen on
some path.
-/

namespace PathTemplate

/-- The match binds the parameter, and if it is required not to the empty text. -/
def Match.Keeps (m : Match) (p : String × Presence) : Prop :=
  ∃ v, m.get? p.1 = some v ∧ (p.2 = .required → v ≠ "")

/-- Some token makes the segment capture the rest without a name. -/
def Segment.mayCapture (o : Options) : Segment → Bool
  | wildcard lead => o.leads = .lenient ∨ lead = ""
  | _ => false

theorem Segment.mayCapture_iff {o : Options} {s : Segment} :
    s.mayCapture o = true ↔ ∃ lead, s = .wildcard lead ∧ (o.leads = .lenient ∨ lead = "") := by
  cases s <;> simp [mayCapture]

/-- A wildcard may capture the rest before the name is bound. -/
def CanSkip (o : Options) (segments : List Segment) (name : String) : Prop :=
  ∃ before after, segments = before ++ after ∧ (∀ s ∈ before, s.admitsToken = true) ∧
    (∃ s ∈ after.head?, s.mayCapture o = true) ∧ name ∉ names before

/-- The path may end where the name is bound without a token. -/
def CanBlank (segments : List Segment) (name : String) : Prop :=
  ∃ before after, segments = before ++ after ∧ (∀ s ∈ before, s.admitsToken = true) ∧
    ∃ ns ∈ namesAtEnd after, name ∈ ns

theorem exists_split_iff {segments : List Segment} {P : List Segment → List Segment → Prop} :
    (∃ before after, segments = before ++ after ∧ P before after) ↔
      ∃ i < segments.length + 1, P (segments.take i) (segments.drop i) := by
  constructor
  · rintro ⟨before, after, rfl, h⟩
    refine ⟨before.length, ?_, by simpa using h⟩
    rw [List.length_append]
    omega
  · rintro ⟨i, -, h⟩
    exact ⟨_, _, (List.take_append_drop i segments).symm, h⟩

instance (o : Options) (segments : List Segment) (name : String) :
    Decidable (CanSkip o segments name) :=
  decidable_of_iff _ exists_split_iff.symm

instance (segments : List Segment) (name : String) : Decidable (CanBlank segments name) :=
  decidable_of_iff _ exists_split_iff.symm

/-! ## What every match keeps -/

theorem mem_parametersOf_append {before after : List Segment} {p : String × Presence}
    (h : p ∈ Template.parametersOf (before ++ after)) :
    p.1 ∈ names before ∨ p ∈ Template.parametersOf after := by
  obtain ⟨name, presence⟩ := p
  induction before with
  | nil => exact Or.inr h
  | cons s before ih =>
    rcases mem_parametersOf_cons.mp h with ⟨a, rfl, -⟩ | ⟨-, h⟩
    · exact Or.inl List.mem_cons_self
    · rw [names_cons s before .percent "", List.mem_append, or_assoc]
      exact Or.inr (ih h)

/-- A name bound to nonempty texts only is bound to one of them last. -/
theorem exists_last_ne_empty {bs : List (String × String)} {name : String}
    (hname : name ∈ bs.map Prod.fst) (hvalues : ∀ b ∈ bs, b.2 ≠ "") :
    ∃ v, bs.reverse.lookup name = some v ∧ v ≠ "" := by
  obtain ⟨v, hv, hmem⟩ := exists_lookup_reverse hname
  exact ⟨v, hv, hvalues _ hmem⟩

theorem map_fst_blank (ns : List String) :
    (ns.map fun name => (name, "")).map Prod.fst = ns := by
  rw [List.map_map]
  exact List.map_id ns

theorem last_of_ending {o : Options} {before after : List Segment} {bs : List (String × String)}
    {e : Findings} {p : String × Presence} (hbefore : ∀ s ∈ before, s.admitsToken = true)
    (hnames : bs.map Prod.fst = names before) (hvalues : ∀ b ∈ bs, b.2 ≠ "")
    (hend : Ending o after e) (hp : p ∈ Template.parametersOf (before ++ after))
    (hskip : ¬ CanSkip o (before ++ after) p.1)
    (hblank : p.2 = .required → ¬ CanBlank (before ++ after) p.1) :
    ∃ v, (e.after bs).last? p.1 = some v ∧ (p.2 = .required → v ≠ "") := by
  have hlisted := mem_parametersOf_append hp
  cases hend with
  | @captured lead rest after hrule =>
    have hcapture : (Segment.wildcard lead).mayCapture o = true := decide_eq_true hrule
    have hname : p.1 ∈ names before := Decidable.not_not.mp fun hn =>
      hskip ⟨before, _, rfl, hbefore, ⟨_, rfl, hcapture⟩, hn⟩
    obtain ⟨v, hv, hne⟩ := exists_last_ne_empty (hnames ▸ hname) hvalues
    exact ⟨v, by simpa [Findings.last?, Findings.after] using hv, fun _ => hne⟩
  | @namedRest name value a after ha hv =>
    have hname : p.1 ∈ (bs ++ [(name, value)]).map Prod.fst := by
      rw [List.map_append, hnames, List.mem_append]
      rcases hlisted with hb | hafter
      · exact Or.inl hb
      · have hp' : p = (name, a.presence) := by
          simpa [Template.parametersOf, ha] using hafter
        exact Or.inr (by simp [hp'])
    have hall : ∀ b ∈ bs ++ [(name, value)], b.2 ≠ "" := by
      intro b hb
      rcases List.mem_append.mp hb with hb | hb
      · exact hvalues b hb
      · rw [List.mem_singleton.mp hb]
        exact hv
    obtain ⟨v, hv, hne⟩ := exists_last_ne_empty hname hall
    exact ⟨v, hv, fun _ => hne⟩
  | @pathEnd _ ns hns =>
    have hfst : (ns.map fun name => (name, "")).map Prod.fst = ns := map_fst_blank ns
    by_cases hin : p.1 ∈ ns
    · have hname : p.1 ∈ (bs ++ ns.map fun name => (name, "")).map Prod.fst := by
        rw [List.map_append, hfst]
        exact List.mem_append_right _ hin
      obtain ⟨v, hv, -⟩ := exists_lookup_reverse hname
      exact ⟨v, hv, fun hr => absurd ⟨before, after, rfl, hbefore, ns, hns, hin⟩ (hblank hr)⟩
    · have hname : p.1 ∈ bs.map Prod.fst := by
        rw [hnames]
        exact hlisted.resolve_right fun hafter => hin (mem_namesAtEnd hns hafter)
      obtain ⟨v, hv, hne⟩ := exists_last_ne_empty hname hvalues
      refine ⟨v, ?_, fun _ => hne⟩
      have hnone := lookup_reverse_eq_none (hfst.symm ▸ hin)
      simp only [Findings.last?, Findings.after, List.reverse_append, List.lookup_append, hnone,
        hv, Option.none_or]

theorem keeps_of_not {text : String} {o : Options} {path : String} {seed : Params} {m : Match}
    {p : String × Presence} (h : matchPath path text seed o = some m)
    (hp : p ∈ (Template.ofString text).parameters)
    (hskip : ¬ CanSkip o (Template.ofString text).segments p.1)
    (hblank : p.2 = .required → ¬ CanBlank (Template.ofString text).segments p.1) :
    m.Keeps p := by
  rw [matchPath_eq, Option.map_eq_some_iff] at h
  obtain ⟨f, hf, rfl⟩ := h
  obtain ⟨before, after, bs, e, hsplit, hbefore, hnames, hvalues, hend, rfl⟩ :=
    exists_ending (fun _ => Path.ne_empty_of_mem_tokens) hf
  rw [Template.parameters, hsplit] at hp
  rw [hsplit] at hskip hblank
  obtain ⟨v, hv, hne⟩ := last_of_ending hbefore hnames hvalues hend hp hskip hblank
  exact ⟨v, by rw [Findings.get?_toMatch, hv, Option.some_or], hne⟩

/-! ## Paths on which a match fails to keep it -/

/-- The path that leads through the first phase of a walk, and on along given tokens. -/
def pathThrough (before : List Segment) (left : List String) : String :=
  Path.ofTokens (before.map Segment.sample ++ left)

theorem matchPath_pathThrough {text : String} {o : Options} {before after : List Segment}
    {left : List String} {f : Findings}
    (hsplit : (Template.ofString text).segments = before ++ after)
    (hbefore : ∀ s ∈ before, s.admitsToken = true) (hleft : ∀ t ∈ left, Path.IsToken t)
    (hf : walk o after left = some f) :
    ∃ bs : List (String × String), bs.map Prod.fst = names before ∧
      ∀ seed, matchPath (pathThrough before left) text seed o =
        some ((f.after bs).toMatch seed) := by
  obtain ⟨bs, hbs, hwalk⟩ := walk_samples o hbefore
  have htokens : ∀ t ∈ before.map Segment.sample ++ left, Path.IsToken t := by
    intro t ht
    rcases List.mem_append.mp ht with ht | ht
    · obtain ⟨s, hs, rfl⟩ := List.mem_map.mp ht
      refine Segment.isToken_sample (hbefore s hs) (slash_not_mem_text text ?_)
      rw [hsplit]
      exact List.mem_append_left _ hs
    · exact hleft t ht
  refine ⟨bs, hbs, fun seed => ?_⟩
  rw [matchPath_eq, hsplit, pathThrough, Path.tokens_ofTokens htokens, hwalk, hf]
  rfl

/-- A path on which a wildcard captures that may, behind segments that can take a token. -/
theorem exists_match_captures {text : String} {o : Options} {before after : List Segment}
    (hsplit : (Template.ofString text).segments = before ++ after)
    (hbefore : ∀ s ∈ before, s.admitsToken = true)
    (hcapture : ∃ s ∈ after.head?, s.mayCapture o = true) :
    ∃ (path rest : String) (bs : List (String × String)), bs.map Prod.fst = names before ∧
      ∀ seed, matchPath path text seed o =
        some (({ bindings := bs, rest := some rest } : Findings).toMatch seed) := by
  obtain ⟨s, hs, hmay⟩ := hcapture
  obtain ⟨lead, rfl, hrule⟩ := Segment.mayCapture_iff.mp hmay
  obtain ⟨after, rfl⟩ := List.head?_eq_some_iff.mp hs
  have hslash : '/' ∉ lead.toList := by
    refine slash_not_mem_text text (s := .wildcard lead) ?_
    simp [hsplit]
  -- The token differs from the text in front of the star, so that the wildcard does not pass.
  have htoken : Path.IsToken (lead ++ "x") := ⟨by simp, by simpa using hslash⟩
  have hcaptures : (Segment.wildcard lead).Captures o (nextToken [lead ++ "x"]) :=
    ⟨htoken.1, by simp [nextToken], hrule⟩
  obtain ⟨bs, hbs, hmatch⟩ := matchPath_pathThrough hsplit hbefore
    (fun t ht => List.mem_singleton.mp ht ▸ htoken) (walk_cons_of_captures hcaptures)
  exact ⟨_, _, bs, hbs, fun seed => by
    simpa [Findings.after, Segment.restBinding?, Segment.capturedRest?] using hmatch seed⟩

theorem exists_match_skips {text : String} {o : Options} {name : String}
    (h : CanSkip o (Template.ofString text).segments name) :
    ∃ path m, matchPath path text {} o = some m ∧ m.get? name = none := by
  obtain ⟨before, after, hsplit, hbefore, hcapture, hname⟩ := h
  obtain ⟨path, rest, bs, hbs, hmatch⟩ := exists_match_captures hsplit hbefore hcapture
  have hlast : bs.reverse.lookup name = none := lookup_reverse_eq_none (hbs ▸ hname)
  refine ⟨path, _, hmatch {}, ?_⟩
  rw [Findings.get?_toMatch]
  simp [Findings.last?, hlast]

theorem exists_match_blanks {text : String} {o : Options} {name : String}
    (h : CanBlank (Template.ofString text).segments name) :
    ∃ path m, matchPath path text {} o = some m ∧ m.get? name = some "" := by
  obtain ⟨before, after, hsplit, hbefore, ns, hns, hname⟩ := h
  have hwalk : walk o after [] = some { bindings := ns.map fun name => (name, "") } := by
    rw [walk_nil_right, Option.mem_def.mp hns]
    rfl
  obtain ⟨bs, -, hmatch⟩ := matchPath_pathThrough hsplit hbefore
    (fun t ht => absurd ht List.not_mem_nil) hwalk
  have hmem : name ∈ (ns.map fun name => (name, "")).map Prod.fst := by rwa [map_fst_blank]
  obtain ⟨v, hv, hblank⟩ := exists_lookup_reverse hmem
  obtain ⟨n, -, hn⟩ := List.mem_map.mp hblank
  have hv0 : v = "" := (congrArg Prod.snd hn).symm
  refine ⟨_, _, hmatch {}, ?_⟩
  rw [Findings.get?_toMatch]
  simp only [Findings.last?, Findings.after, List.reverse_append, List.lookup_append, hv,
    Option.some_or, hv0]

/-- **When presences are reliable.** Every match keeps a listed parameter exactly if no wildcard
may capture the rest before its name is bound, and, where it is required, the path may not end
where the name is bound without a token. -/
theorem presence_reliable_iff (text : String) (o : Options) (p : String × Presence)
    (hp : p ∈ (Template.ofString text).parameters) :
    (∀ path seed m, matchPath path text seed o = some m → m.Keeps p) ↔
      ¬ CanSkip o (Template.ofString text).segments p.1 ∧
        (p.2 = .required → ¬ CanBlank (Template.ofString text).segments p.1) := by
  constructor
  · intro hkeeps
    refine ⟨fun hskip => ?_, fun hr hblank => ?_⟩
    · obtain ⟨path, m, hm, hnone⟩ := exists_match_skips hskip
      obtain ⟨v, hv, -⟩ := hkeeps path {} m hm
      exact absurd (hnone.symm.trans hv) (by simp)
    · obtain ⟨path, m, hm, hempty⟩ := exists_match_blanks hblank
      obtain ⟨v, hv, hne⟩ := hkeeps path {} m hm
      exact hne hr (Option.some.inj (hv.symm.trans hempty))
  · rintro ⟨hskip, hblank⟩ path seed m hm
    exact keeps_of_not hm hp hskip hblank

/-- A wildcard that stands behind the parameter does no harm. -/
theorem presence_reliable_files :
    ("id", Presence.required) ∈ (Template.ofString "/files/:id/*").parameters ∧
      ∀ path seed m, matchPath path "/files/:id/*" seed {} = some m →
        m.Keeps ("id", .required) :=
  ⟨by decide, (presence_reliable_iff _ _ _ (by decide)).mpr (by decide)⟩

/-- A wildcard in front of a required parameter leaves it out. -/
theorem not_presence_reliable :
    ¬ ∀ (text path : String) (seed : Params) (o : Options) (m : Match),
      matchPath path text seed o = some m →
        ∀ p ∈ (Template.ofString text).parameters, m.Keeps p := by
  intro h
  have hm : matchPath "/a/b" "/*/:id" {} {} = some { params := {}, rest := some "/a/b" } := by
    decide
  have hp : ("id", Presence.required) ∈ (Template.ofString "/*/:id").parameters := by decide
  obtain ⟨v, hv, -⟩ := h "/*/:id" "/a/b" {} {} _ hm _ hp
  have hnone : Match.get? { params := {}, rest := some "/a/b" } "id" = none := by decide
  exact absurd (hnone.symm.trans hv) (by simp)

end PathTemplate
