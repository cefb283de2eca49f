import PathTemplate.Proofs.BoundNames
import PathTemplate.Proofs.Nesting

/-!
Templates that match one path only. If all segments are literals with some text, the path has to
spell these texts (`walk_map_literal_eq_some_iff`). A path may be its own template: read as
segments, a token is a literal with its own text exactly if no colon starts it and no mark ends it
(`text_ofToken_eq_self_iff`), and any other token either refuses itself or leaves a trace in the
match, a binding or a captured rest. So a path matches itself without a trace exactly if all its
tokens are of the first kind (`literal_templates`).
-/

namespace PathTemplate

/-! ## Tokens that read as they stand -/

namespace Segment

/-- Neither a colon in front nor a mark at the end. -/
def IsPlain (token : String) : Prop :=
  token.toList.head? ≠ some ':' ∧ token.toList.getLast? ∉ [some '?', some '+', some '*']

instance (token : String) : Decidable (IsPlain token) := inferInstanceAs (Decidable (_ ∧ _))

/-- Reading takes something off every token that is not plain. -/
theorem text_ofToken_eq_self_iff {token : String} :
    (ofToken token).text = token ↔ IsPlain token := by
  rw [IsPlain, ← unmarked_iff, ← splitMark_fst_eq_self_iff]
  by_cases hcolon : token.toList.head? = some ':'
  · obtain ⟨cs, hcs⟩ := List.head?_eq_some_iff.mp hcolon
    rw [ofToken_colon hcs, text_ofParamText]
    have hne : String.ofList (splitMark cs).1 ≠ token := by
      intro h
      have hlen := congrArg (fun s : String => s.toList.length) h
      have hle : (splitMark cs).1.length ≤ cs.length := (isPrefix_splitMark cs).length_le
      simp only [String.toList_ofList, hcs, List.length_cons] at hlen
      omega
    simp [hne, hcolon]
  · rw [ofToken_plain hcolon, text_ofPlainText, String.ext_iff, String.toList_ofList]
    simp [hcolon]

theorem ofToken_of_isPlain {token : String} (h : IsPlain token) :
    ofToken token = .literal token := by
  rw [ofToken_plain h.1, ofPlainText_unmarked (unmarked_iff.mpr h.2), String.ofList_toList]

/-- A question mark behind a token does nothing but keep a mark in front of it. -/
theorem ofToken_append_question {token : String} (h : token.toList.head? ≠ some ':') :
    ofToken (token ++ "?") = .literal token := by
  have htoken : (token ++ "?").toList = token.toList ++ ['?'] := by simp
  have hhead : (token ++ "?").toList.head? ≠ some ':' := by
    rw [htoken]
    exact head?_concat h (by decide)
  have hmark : Arity.ofMark? '?' = some .zeroOrOne := rfl
  rw [ofToken_plain hhead, htoken, ofPlainText_concat _ hmark (by decide), String.ofList_toList]

end Segment

/-! ## Walks that leave no trace -/

section Walk

variable {o : Options} {s : Segment} {segments : List Segment}

/-- **Literals only.** The path has to spell their texts. -/
theorem walk_map_literal_eq_some_iff {texts tokens : List String} {f : Findings}
    (h : ∀ x ∈ texts, x ≠ "") :
    walk o (texts.map Segment.literal) tokens = some f ↔ tokens = texts ∧ f = {} := by
  induction texts generalizing tokens with
  | nil => cases tokens <;> simp [walk, eq_comm]
  | cons x xs ih =>
    have hx : x ≠ "" := h x (by simp)
    by_cases hp : x = nextToken tokens
    · have hpasses : (Segment.literal x).Passes (nextToken tokens) := hp
      cases tokens with
      | nil => exact absurd hp hx
      | cons t ts =>
        obtain rfl : x = t := hp
        have hxs : walk o (xs.map Segment.literal) ts = some f ↔ ts = xs ∧ f = {} :=
          ih fun y hy => h y (by simp [hy])
        rw [List.map_cons, walk_cons_of_passes hpasses, List.tail_cons]
        simp [Segment.binding?, Findings.after_nil, hxs]
    · have hrefuses : ¬ (Segment.literal x).Passes (nextToken tokens) := hp
      have hne : tokens ≠ x :: xs := by
        rintro rfl
        exact hp rfl
      rw [List.map_cons, walk_cons_of_refuses hrefuses id]
      simp [hne]

/-- A walk leaves no trace if each segment passes its token and has no name. -/
theorem walk_cons_eq_empty_iff {t : String} {ts : List String} :
    walk o (s :: segments) (t :: ts) = some {} ↔
      (s.Passes t ∧ s.name? = none) ∧ walk o segments ts = some {} := by
  by_cases hp : s.Passes (nextToken (t :: ts))
  · have hp' : s.Passes t := hp
    rw [walk_cons_of_passes hp]
    cases s with
    | literal text | wildcard lead =>
      simp [hp', Segment.binding?, Segment.name?, Findings.after_nil]
    | param name a =>
      simp [Segment.binding?, Segment.name?, Findings.after]
  · have hp' : ¬ s.Passes t := hp
    by_cases hc : s.Captures o (nextToken (t :: ts))
    · rw [walk_cons_of_captures hc]
      cases s with
      | literal text => exact absurd hc id
      | wildcard lead => simp [hp', Segment.capturedRest?]
      | param name a => simp [hp', Segment.restBinding?]
    · simp [walk_cons_of_refuses hp hc, hp']

end Walk

theorem Segment.passes_ofToken_iff {token : String} :
    (ofToken token).Passes token ∧ (ofToken token).name? = none ↔ IsPlain token := by
  rw [← text_ofToken_eq_self_iff]
  constructor
  · rintro ⟨hp, hname⟩
    cases hs : ofToken token with
    | literal x | wildcard x =>
      rw [hs] at hp
      exact hp
    | param name a => simp [hs, name?] at hname
  · intro h
    rw [ofToken_of_isPlain (text_ofToken_eq_self_iff.mp h)]
    exact ⟨rfl, rfl⟩

/-- **A path as its own template.** -/
theorem walk_ofToken_eq_empty_iff (o : Options) (tokens : List String) :
    walk o (tokens.map Segment.ofToken) tokens = some {} ↔
      ∀ t ∈ tokens, Segment.IsPlain t := by
  induction tokens with
  | nil => simp [walk]
  | cons t ts ih =>
    rw [List.map_cons, walk_cons_eq_empty_iff, Segment.passes_ofToken_iff, ih,
      List.forall_mem_cons]

/-- Every binding shows in the match. -/
theorem Findings.toMatch_eq_empty_iff {f : Findings} : f.toMatch {} = {} ↔ f = {} := by
  constructor
  · intro h
    have hbindings : f.bindings = [] := by
      rw [List.eq_nil_iff_forall_not_mem]
      rintro ⟨name, v⟩ hmem
      have hname : name ∈ (f.toMatch {}).params := mem_params_toMatch_iff.mpr ⟨v, hmem⟩
      simp [h] at hname
    have hrest : f.rest = none := congrArg Match.rest h
    obtain ⟨bindings, rest⟩ := f
    obtain rfl : bindings = [] := hbindings
    obtain rfl : rest = none := hrest
    rfl
  · rintro rfl
    rfl

/-! ## Templates -/

theorem matchPath_literals_eq_some_iff {text : String} {texts : List String}
    (hsegments : (Template.ofString text).segments = texts.map Segment.literal)
    (h : ∀ x ∈ texts, x ≠ "") {path : String} {seed : Params} {o : Options} {m : Match} :
    matchPath path text seed o = some m ↔ Path.tokens path = texts ∧ m = { params := seed } := by
  rw [matchPath_eq, hsegments, Option.map_eq_some_iff]
  constructor
  · rintro ⟨f, hf, rfl⟩
    obtain ⟨htokens, rfl⟩ := (walk_map_literal_eq_some_iff h).mp hf
    exact ⟨htokens, rfl⟩
  · rintro ⟨htokens, rfl⟩
    exact ⟨{}, (walk_map_literal_eq_some_iff h).mpr ⟨htokens, rfl⟩, rfl⟩

/-- A question mark behind each token makes all of them literals. -/
theorem segments_append_question {ts : List String}
    (h : ∀ t ∈ ts, Path.IsToken t ∧ t.toList.head? ≠ some ':') :
    (Template.ofString (Path.ofTokens (ts.map (· ++ "?")))).segments =
      ts.map Segment.literal := by
  have htokens : ∀ t ∈ ts.map (· ++ "?"), Path.IsToken t := by
    intro t ht
    obtain ⟨u, hu, rfl⟩ := List.mem_map.mp ht
    have hslash : '/' ∉ u.toList := (h u hu).1.2
    exact ⟨by simp, by simp [hslash]⟩
  rw [Template.segments_ofString, Path.tokens_ofTokens htokens, List.map_map]
  exact List.map_congr_left fun t ht => Segment.ofToken_append_question (h t ht).2

/-- **Literal templates.** Literals with some text match the path that spells them and no other,
without a binding or a rest; each list of tokens without a colon in front is matched in this way by
the tokens with a question mark behind each. A path is matched by itself, with nothing bound and no
rest, exactly if no token of it starts with a colon or ends in a mark. -/
theorem literal_templates :
    (∀ text texts, (Template.ofString text).segments = texts.map .literal →
      (∀ x ∈ texts, x ≠ "") → ∀ path seed o,
        ((matchPath path text seed o).isSome = true ↔ Path.tokens path = texts) ∧
        ∀ m, matchPath path text seed o = some m → m.params = seed ∧ m.rest = none) ∧
    (∀ ts : List String, (∀ t ∈ ts, Path.IsToken t ∧ t.toList.head? ≠ some ':') →
      ∀ path seed o,
        (matchPath path (Path.ofTokens (ts.map (· ++ "?"))) seed o).isSome = true ↔
          Path.tokens path = ts) ∧
    ∀ path o, matchPath path path {} o = some { params := {}, rest := none } ↔
      ∀ t ∈ Path.tokens path, Segment.IsPlain t := by
  refine ⟨?_, ?_, ?_⟩
  · intro text texts hsegments hne path seed o
    refine ⟨?_, ?_⟩
    · simp [Option.isSome_iff_exists, matchPath_literals_eq_some_iff hsegments hne]
    · intro m hm
      obtain ⟨-, rfl⟩ := (matchPath_literals_eq_some_iff hsegments hne).mp hm
      exact ⟨rfl, rfl⟩
  · intro ts hts path seed o
    have hne : ∀ t ∈ ts, t ≠ "" := fun t ht => (hts t ht).1.1
    simp [Option.isSome_iff_exists,
      matchPath_literals_eq_some_iff (segments_append_question hts) hne]
  · intro path o
    rw [matchPath_eq, Template.segments_ofString, ← walk_ofToken_eq_empty_iff o,
      Option.map_eq_some_iff]
    constructor
    · rintro ⟨f, hf, hempty⟩
      rw [hf, Findings.toMatch_eq_empty_iff.mp hempty]
    · intro h
      exact ⟨{}, h, rfl⟩

/-- A literal that ends in a mark, read and spelled. -/
theorem literal_templates_docs :
    ((∀ path, (matchPath path "/docs?/v*?" {} {}).isSome = true ↔
        Path.tokens path = ["docs", "v*"]) ∧
      ∃ m, matchPath "docs//v*/" "/docs?/v*?" {} {} = some m ∧ m.params = {} ∧ m.rest = none) ∧
    (∀ t ∈ ["docs", "v*", "a:b?"], Path.IsToken t ∧ t.toList.head? ≠ some ':') ∧
    ((matchPath "/docs/v*/a:b?" "/docs?/v*?/a:b??" {} {}).isSome = true ↔
      Path.tokens "/docs/v*/a:b?" = ["docs", "v*", "a:b?"]) := by
  have hsegments : (Template.ofString "/docs?/v*?").segments =
      ["docs", "v*"].map Segment.literal := by decide
  have hne : ∀ x ∈ ["docs", "v*"], x ≠ "" := by decide
  have hm : matchPath "docs//v*/" "/docs?/v*?" {} {} = some {} := by decide
  have hts : ∀ t ∈ ["docs", "v*", "a:b?"], Path.IsToken t ∧ t.toList.head? ≠ some ':' := by
    decide
  refine ⟨⟨?_, _, hm, ?_⟩, hts, ?_⟩
  · exact fun path => (literal_templates.1 _ _ hsegments hne path {} {}).1
  · exact (literal_templates.1 _ _ hsegments hne _ {} {}).2 _ hm
  · exact literal_templates.2.1 _ hts "/docs/v*/a:b?" {} {}

end PathTemplate
