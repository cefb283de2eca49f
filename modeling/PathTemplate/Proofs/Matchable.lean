import PathTemplate.Proofs.Presence

/-!
Which templates match at all. A literal without text is met at the end of the path only, so that
what stands behind the first of them has to do without tokens, unless the walk stops before it.
`CanMatch` says when one of the two is possible; `exists_match_iff` says that a path is matched
exactly then.
-/

namespace PathTemplate

namespace Segment

/-- Some token makes the segment end the walk with a match. -/
def mayStop (o : Options) (s : Segment) : Bool := s.takesRest || s.mayCapture o

/-- The walk can go on past the segment, or stop there, without a token. -/
def acceptsNone : Segment → Bool
  | literal text => text = ""
  | wildcard lead => lead = ""
  | param _ a => a.acceptsNone

/-- A parameter for any number of tokens. -/
def takesAny : Segment → Bool
  | param _ a => a.takesRest && a.acceptsNone
  | _ => false

end Segment

/-- The segments up to the first parameter for any number of tokens, this one included. -/
def throughRest : List Segment → List Segment
  | [] => []
  | s :: rest => s :: if s.takesAny then [] else throughRest rest

/-- No segment is blank; or some segment in front of the first blank one may stop; or all segments
from there on, to the first parameter for any number of tokens, can do without a token. -/
def CanMatch (o : Options) (segments : List Segment) : Prop :=
  Segment.blank ∉ segments ∨
    ∃ before after, segments = before ++ after ∧ after.head? = some Segment.blank ∧
      Segment.blank ∉ before ∧
        ((∃ s ∈ before, s.mayStop o = true) ∨ ∀ s ∈ throughRest after, s.acceptsNone = true)

instance (o : Options) (segments : List Segment) : Decidable (CanMatch o segments) :=
  have : Decidable (∃ before after, segments = before ++ after ∧
      after.head? = some Segment.blank ∧ Segment.blank ∉ before ∧
        ((∃ s ∈ before, s.mayStop o = true) ∨ ∀ s ∈ throughRest after, s.acceptsNone = true)) :=
    decidable_of_iff _ exists_split_iff.symm
  inferInstanceAs (Decidable (_ ∨ _))

/-! ## Segments -/

namespace Segment

variable {o : Options} {s : Segment}

theorem mayStop_of_takesAny (h : s.takesAny = true) : s.mayStop o = true := by
  cases s with
  | literal text | wildcard lead => exact absurd h (by simp [takesAny])
  | param name a =>
    simp only [takesAny, Bool.and_eq_true] at h
    simp [mayStop, takesRest, h.1]

/-- A segment that neither is blank nor may stop takes a token. -/
theorem admitsToken_of_not_mayStop (hblank : s ≠ blank) (hstop : s.mayStop o = false) :
    s.admitsToken = true := by
  cases s with
  | literal text =>
    have ht : text ≠ "" := fun ht => hblank (congrArg literal ht)
    exact decide_eq_true ht
  | wildcard lead =>
    have hl : lead ≠ "" := by
      rintro rfl
      simp [mayStop, mayCapture] at hstop
    exact decide_eq_true hl
  | param name a =>
    have ha : a.takesRest = false := by
      simpa [mayStop, takesRest, mayCapture] using hstop
    simp [admitsToken, ha]

/-- Only a question mark and a plus sign on their own make a blank segment. -/
theorem ofToken_eq_blank {token : String} (h : ofToken token = blank) :
    token = "" ∨ token = "?" ∨ token = "+" := by
  have hplain : token.toList.head? ≠ some ':' := by
    intro hc
    obtain ⟨cs, hcs⟩ := List.head?_eq_some_iff.mp hc
    rw [ofToken_colon hcs] at h
    exact absurd h (by simp [ofParamText, blank])
  rw [ofToken_plain hplain] at h
  have htoken : token = String.ofList token.toList := String.ofList_toList.symm
  rcases splitMark_cases token.toList with ⟨hu, -⟩ | ⟨ds, c, a, hds, ha, -⟩
  · rw [ofPlainText_unmarked hu, String.ofList_toList] at h
    exact Or.inl (literal.inj h)
  · rw [hds] at h htoken
    have hmark := Arity.ofMark?_eq_some_iff.mp ha
    by_cases hs : a = .zeroOrMore
    · rw [ofPlainText_star ds (hs ▸ ha)] at h
      exact absurd h (by simp [blank])
    · rw [ofPlainText_concat ds ha hs] at h
      have hnil : ds = [] := by simpa [blank] using h
      rw [hnil, List.nil_append] at htoken
      cases a with
      | one => exact absurd hmark (by simp [Arity.mark?])
      | zeroOrOne =>
        obtain rfl : '?' = c := Option.some.inj hmark
        exact Or.inr (Or.inl htoken)
      | oneOrMore =>
        obtain rfl : '+' = c := Option.some.inj hmark
        exact Or.inr (Or.inr htoken)
      | zeroOrMore => exact absurd rfl hs

end Segment

/-! ## Past the end of the path -/

theorem namesAtEnd_isSome_iff {segments : List Segment} :
    (namesAtEnd segments).isSome = true ↔ ∀ s ∈ throughRest segments, s.acceptsNone = true := by
  induction segments with
  | nil => simp [namesAtEnd, throughRest]
  | cons s rest ih =>
    cases s with
    | literal text =>
      by_cases ht : text = "" <;>
        simp [namesAtEnd, throughRest, Segment.takesAny, Segment.acceptsNone, ht, ih]
    | wildcard lead =>
      by_cases hl : lead = "" <;>
        simp [namesAtEnd, throughRest, Segment.takesAny, Segment.acceptsNone, hl, ih]
    | param name a =>
      cases a <;>
        simp [namesAtEnd, throughRest, Segment.takesAny, Segment.acceptsNone, Arity.takesRest,
          Arity.acceptsNone, ih]

theorem throughRest_append {before after : List Segment}
    (h : ∀ s ∈ before, s.takesAny = false) :
    throughRest (before ++ after) = before ++ throughRest after := by
  induction before with
  | nil => rfl
  | cons s before ih =>
    have hs : s.takesAny = false := h s (by simp)
    have hbefore := ih fun u hu => h u (by simp [hu])
    simp [throughRest, hs, hbefore]

/-! ## The criterion is necessary -/

theorem exists_mayStop_or_of_ending {o : Options} {after : List Segment} {e : Findings}
    (h : Ending o after e) :
    (∃ s ∈ after.head?, s.mayStop o = true) ∨ ∀ s ∈ throughRest after, s.acceptsNone = true := by
  cases h with
  | @captured lead rest after hrule =>
    have hmay : (Segment.wildcard lead).mayCapture o = true := decide_eq_true hrule
    exact Or.inl ⟨_, rfl, by simp [Segment.mayStop, hmay]⟩
  | @namedRest name value a after ha hv =>
    exact Or.inl ⟨_, rfl, by simp [Segment.mayStop, Segment.takesRest, ha]⟩
  | @pathEnd _ ns hns =>
    exact Or.inr (namesAtEnd_isSome_iff.mp (by simp [hns]))

/-- A list is cut in front of a member, or at it, where that member does not come before. -/
theorem exists_between {α : Type} {a : α} {before after front back : List α}
    (h : front ++ a :: back = before ++ after) (ha : a ∉ before) :
    ∃ between, front = before ++ between ∧ after = between ++ a :: back := by
  rcases List.append_eq_append_iff.mp h with ⟨c, hc, hback⟩ | ⟨c, hc, hafter⟩
  · cases c with
    | nil => exact ⟨[], by simpa using hc.symm, by simpa using hback.symm⟩
    | cons b c =>
      obtain ⟨rfl, -⟩ := List.cons.inj hback
      exact absurd (by simp [hc]) ha
  · exact ⟨c, hc, hafter⟩

/-- A walk that goes through the segments up to a blank one ends with what is behind it. -/
theorem acceptsNone_of_ending {o : Options} {between back : List Segment} {e : Findings}
    (hend : Ending o (between ++ Segment.blank :: back) e)
    (hstop : ∀ s ∈ between, s.mayStop o = false) :
    ∀ s ∈ throughRest (Segment.blank :: back), s.acceptsNone = true := by
  rcases exists_mayStop_or_of_ending hend with ⟨s, hs, hm⟩ | hall
  · cases between with
    | nil =>
      obtain rfl : Segment.blank = s := Option.some.inj hs
      exact absurd hm Bool.false_ne_true
    | cons u between =>
      obtain rfl : u = s := Option.some.inj hs
      exact absurd hm (by simp [hstop u (by simp)])
  · have hany : ∀ s ∈ between, s.takesAny = false := by
      intro s hs
      refine Bool.eq_false_iff.mpr fun ha => ?_
      have hm : s.mayStop o = true := Segment.mayStop_of_takesAny ha
      exact absurd hm (by simp [hstop s hs])
    rw [throughRest_append hany] at hall
    exact fun s hs => hall s (List.mem_append_right _ hs)

/-- The first phase of a walk has no blank segment in it, so that it ends in front of the first one
or at it. -/
theorem canMatch_of_walk {o : Options} {segments : List Segment} {tokens : List String}
    {f : Findings} (ht : ∀ t ∈ tokens, t ≠ "") (h : walk o segments tokens = some f) :
    CanMatch o segments := by
  by_cases hmem : Segment.blank ∈ segments
  · obtain ⟨front, back, hsplit, hfront⟩ := List.eq_append_cons_of_mem hmem
    refine Or.inr ⟨front, Segment.blank :: back, hsplit, rfl, hfront, ?_⟩
    obtain ⟨before, after, bs, e, hphases, hbefore, -, -, hend, -⟩ := exists_ending ht h
    have hblank : Segment.blank ∉ before := by
      intro hb
      exact absurd (hbefore _ hb) Bool.false_ne_true
    obtain ⟨between, rfl, rfl⟩ := exists_between (hsplit.symm.trans hphases) hblank
    by_cases hstop : ∃ s ∈ before ++ between, s.mayStop o = true
    · exact Or.inl hstop
    · have hnone : ∀ s ∈ between, s.mayStop o = false := fun s hs =>
        Bool.eq_false_iff.mpr fun hm => hstop ⟨s, List.mem_append_right _ hs, hm⟩
      exact Or.inr (acceptsNone_of_ending hend hnone)
  · exact Or.inl hmem

/-! ## The criterion is sufficient -/

section Paths

variable {text : String} {o : Options} {before after : List Segment}
  (hsplit : (Template.ofString text).segments = before ++ after)

include hsplit

/-- A path that leads to a segment that may stop, and stops there. -/
theorem exists_match_stops (hbefore : ∀ s ∈ before, s.admitsToken = true)
    (hstop : ∃ s ∈ after.head?, s.mayStop o = true) :
    ∃ path, ∀ seed, (matchPath path text seed o).isSome = true := by
  obtain ⟨s, hs, hm⟩ := hstop
  rcases Bool.or_eq_true_iff.mp hm with hrest | hcapture
  · obtain ⟨after, rfl⟩ := List.head?_eq_some_iff.mp hs
    have hx : Path.IsToken "x" := ⟨by decide, by decide⟩
    have hcaptures : s.Captures o (nextToken ["x"]) := by
      cases s with
      | literal text | wildcard lead => exact absurd hrest (by simp [Segment.takesRest])
      | param name a =>
        cases a with
        | one | zeroOrOne => exact absurd hrest (by simp [Segment.takesRest, Arity.takesRest])
        | oneOrMore => exact hx.1
        | zeroOrMore => trivial
    obtain ⟨bs, -, hmatch⟩ := matchPath_pathThrough hsplit hbefore
      (fun t ht => List.mem_singleton.mp ht ▸ hx) (walk_cons_of_captures hcaptures)
    exact ⟨_, fun seed => by rw [hmatch seed]; rfl⟩
  · obtain ⟨path, rest, bs, -, hmatch⟩ := exists_match_captures hsplit hbefore ⟨s, hs, hcapture⟩
    exact ⟨path, fun seed => by rw [hmatch seed]; rfl⟩

/-- A path that ends where the segments that are left can do without tokens. -/
theorem exists_match_ends (hbefore : ∀ s ∈ before, s.admitsToken = true)
    (hafter : ∀ s ∈ throughRest after, s.acceptsNone = true) :
    ∃ path, ∀ seed, (matchPath path text seed o).isSome = true := by
  obtain ⟨ns, hns⟩ := Option.isSome_iff_exists.mp (namesAtEnd_isSome_iff.mpr hafter)
  have hwalk : walk o after [] = some { bindings := ns.map fun name => (name, "") } := by
    rw [walk_nil_right, hns]
    rfl
  obtain ⟨bs, -, hmatch⟩ := matchPath_pathThrough hsplit hbefore
    (fun t ht => absurd ht List.not_mem_nil) hwalk
  exact ⟨_, fun seed => by rw [hmatch seed]; rfl⟩

theorem exists_match_of_split (hblank : Segment.blank ∉ before)
    (h : (∃ s ∈ before, s.mayStop o = true) ∨ ∀ s ∈ throughRest after, s.acceptsNone = true) :
    ∃ path, ∀ seed, (matchPath path text seed o).isSome = true := by
  cases hfind : before.find? (Segment.mayStop o) with
  | some s =>
    -- The first segment that may stop: those in front of it take tokens.
    obtain ⟨hm, front, back, rfl, hfront⟩ := List.find?_eq_some_iff_append.mp hfind
    have hadmits : ∀ u ∈ front, u.admitsToken = true := by
      intro u hu
      have hu' : u ≠ Segment.blank := by
        rintro rfl
        exact hblank (List.mem_append_left _ hu)
      exact Segment.admitsToken_of_not_mayStop hu' (by simpa using hfront u hu)
    have hsplit' : (Template.ofString text).segments = front ++ (s :: back ++ after) := by
      rw [hsplit, List.append_assoc]
    exact exists_match_stops hsplit' hadmits ⟨s, rfl, hm⟩
  | none =>
    have hnone : ∀ s ∈ before, s.mayStop o = false := by
      simpa using List.find?_eq_none.mp hfind
    have hadmits : ∀ s ∈ before, s.admitsToken = true := by
      intro s hs
      have hs' : s ≠ Segment.blank := fun he => hblank (he ▸ hs)
      exact Segment.admitsToken_of_not_mayStop hs' (hnone s hs)
    rcases h with ⟨s, hs, hm⟩ | hafter
    · exact absurd hm (by simp [hnone s hs])
    · exact exists_match_ends hsplit hadmits hafter

end Paths

theorem exists_match_of_canMatch {text : String} {o : Options}
    (h : CanMatch o (Template.ofString text).segments) :
    ∃ path, ∀ seed, (matchPath path text seed o).isSome = true := by
  rcases h with hblank | ⟨before, after, hsplit, -, hblank, h⟩
  · exact exists_match_of_split (List.append_nil _).symm hblank
      (Or.inr fun s hs => absurd hs List.not_mem_nil)
  · exact exists_match_of_split hsplit hblank h

theorem blank_not_mem_segments {text : String} (hoptional : "?" ∉ Path.tokens text)
    (hmore : "+" ∉ Path.tokens text) : Segment.blank ∉ (Template.ofString text).segments := by
  intro hmem
  obtain ⟨token, ht, hread⟩ := List.mem_map.mp hmem
  rcases Segment.ofToken_eq_blank hread with rfl | rfl | rfl
  · exact Path.ne_empty_of_mem_tokens ht rfl
  · exact hoptional ht
  · exact hmore ht

/-- **Which templates match at all.** Some path is matched exactly if the template meets the
criterion, and that is so for every template without a question mark or a plus sign that stands
alone. -/
theorem exists_match_iff (text : String) (seed : Params) (o : Options) :
    ((∃ path, (matchPath path text seed o).isSome = true) ↔
      CanMatch o (Template.ofString text).segments) ∧
    ("?" ∉ Path.tokens text → "+" ∉ Path.tokens text →
      ∃ path, (matchPath path text seed o).isSome = true) := by
  have hsufficient : CanMatch o (Template.ofString text).segments →
      ∃ path, (matchPath path text seed o).isSome = true := by
    intro h
    obtain ⟨path, hmatch⟩ := exists_match_of_canMatch h
    exact ⟨path, hmatch seed⟩
  refine ⟨⟨?_, hsufficient⟩, ?_⟩
  · rintro ⟨path, hsome⟩
    rw [matchPath_eq, Option.isSome_map, Option.isSome_iff_exists] at hsome
    obtain ⟨f, hf⟩ := hsome
    exact canMatch_of_walk (fun _ => Path.ne_empty_of_mem_tokens) hf
  · intro hoptional hmore
    exact hsufficient (Or.inl (blank_not_mem_segments hoptional hmore))

/-- Behind a blank segment a parameter is never given the token it needs, unless the walk stops in
front of it. -/
theorem exists_match_iff_docs :
    ("?" ∉ Path.tokens "/v*?/:id/*" ∧ "+" ∉ Path.tokens "/v*?/:id/*" ∧
      ∃ path, (matchPath path "/v*?/:id/*" {} {}).isSome = true) ∧
    (¬ ∃ path, (matchPath path "/docs/+/:page" {} {}).isSome = true) ∧
    ∃ path, (matchPath path "/docs/v*/+/:page" {} {}).isSome = true := by
  refine ⟨⟨by decide, by decide, ?_⟩, ?_, ?_⟩
  · exact (exists_match_iff "/v*?/:id/*" {} {}).2 (by decide) (by decide)
  · rw [(exists_match_iff "/docs/+/:page" {} {}).1]
    decide
  · exact (exists_match_iff "/docs/v*/+/:page" {} {}).1.mpr (by decide)

end PathTemplate
