import PathTemplate.Match.Walk
import PathTemplate.Proofs.Tokens

/-!
Where a walk ends, said by position. A segment *passes* or *captures* the token at its own
position, the empty text past the last one; the walk ends at the first segment that captures, or
past the last segment if no token is left over. `walk_eq_some_iff` says that it succeeds exactly
when there is such a position, and what it has found there; `matchTokens_by_position` says the same
of matches.
-/

namespace PathTemplate

/-- Token number `i`, the empty text past the last one. -/
def tokenAt (tokens : List String) (i : Nat) : String := tokens.getD i ""

theorem tokenAt_zero (tokens : List String) : tokenAt tokens 0 = nextToken tokens := by
  cases tokens <;> rfl

theorem tokenAt_succ (tokens : List String) (i : Nat) :
    tokenAt tokens (i + 1) = tokenAt tokens.tail i := by
  cases tokens <;> rfl

theorem tokenAt_eq_empty_iff {tokens : List String} (ht : ∀ t ∈ tokens, t ≠ "") {i : Nat} :
    tokenAt tokens i = "" ↔ tokens.length ≤ i := by
  unfold tokenAt
  rw [List.getD_eq_getElem?_getD]
  cases hi : tokens[i]? with
  | none =>
    have hlen : tokens.length ≤ i := List.getElem?_eq_none_iff.mp hi
    simp [hlen]
  | some t =>
    have hne : t ≠ "" := ht t (List.mem_of_getElem? hi)
    have hlt : i < tokens.length := (List.getElem?_eq_some_iff.mp hi).1
    simp only [Option.getD_some, hne, false_iff]
    omega

/-! ## One segment -/

namespace Segment

/-- The segment lets the walk go on behind the token. -/
def Passes (token : String) : Segment → Prop
  | literal text => text = token
  | wildcard lead => lead = token
  | param _ .one => token ≠ ""
  | param _ .zeroOrOne => True
  | param _ .oneOrMore | param _ .zeroOrMore => False

/-- The segment ends the walk with all tokens from this one on. -/
def Captures (o : Options) (token : String) : Segment → Prop
  | literal _ => False
  | wildcard lead => token ≠ "" ∧ token ≠ lead ∧ (o.leads = .lenient ∨ lead = "")
  | param _ .one | param _ .zeroOrOne => False
  | param _ .oneOrMore => token ≠ ""
  | param _ .zeroOrMore => True

instance (token : String) : (s : Segment) → Decidable (s.Passes token)
  | literal text => inferInstanceAs (Decidable (text = token))
  | wildcard lead => inferInstanceAs (Decidable (lead = token))
  | param _ .one => inferInstanceAs (Decidable (token ≠ ""))
  | param _ .zeroOrOne => isTrue trivial
  | param _ .oneOrMore | param _ .zeroOrMore => isFalse id

instance (o : Options) (token : String) : (s : Segment) → Decidable (s.Captures o token)
  | literal _ => isFalse id
  | wildcard lead =>
    inferInstanceAs (Decidable (token ≠ "" ∧ token ≠ lead ∧ (o.leads = .lenient ∨ lead = "")))
  | param _ .one | param _ .zeroOrOne => isFalse id
  | param _ .oneOrMore => inferInstanceAs (Decidable (token ≠ ""))
  | param _ .zeroOrMore => isTrue trivial

/-- Why a segment refuses the token, if it neither passes nor captures it. -/
def refusal (token : String) : Segment → Mismatch
  | literal _ => .text
  | wildcard _ => if token = "" then .text else .lead
  | param .. => .missing

/-- What a segment binds on the way. -/
def binding? (d : Decoding) (token : String) : Segment → Option (String × String)
  | param name _ => some (name, Escape.decode d token)
  | _ => none

/-- What a named rest binds: the tokens are decoded one by one. -/
def restBinding? (d : Decoding) (left : List String) : Segment → Option (String × String)
  | param name _ => some (name, "/".intercalate (left.map (Escape.decode d)))
  | _ => none

/-- What a wildcard captures: the tokens as they are. -/
def capturedRest? (left : List String) : Segment → Option String
  | wildcard _ => some ("/" ++ "/".intercalate left)
  | _ => none

theorem not_captures_of_passes {o : Options} {token : String} {s : Segment} (h : s.Passes token) :
    ¬ s.Captures o token := by
  cases s with
  | literal text => exact fun hc => hc
  | wildcard lead => exact fun hc => hc.2.1 h.symm
  | param name a => cases a <;> simp_all [Passes, Captures]

/-- Only a parameter for a single token passes. -/
theorem takesRest_of_passes {token name : String} {a : Arity} (h : (param name a).Passes token) :
    a.takesRest = false := by
  cases a with
  | one | zeroOrOne => rfl
  | oneOrMore | zeroOrMore => exact absurd h id

theorem takesRest_of_captures {o : Options} {token name : String} {a : Arity}
    (h : (param name a).Captures o token) : a.takesRest = true := by
  cases a with
  | one | zeroOrOne => exact absurd h id
  | oneOrMore | zeroOrMore => rfl

/-- A wildcard refuses a token only if its text is there to be insisted on. -/
theorem strict_of_refuses {o : Options} {token lead : String} (ht : token ≠ "")
    (hp : ¬ (wildcard lead).Passes token) (hc : ¬ (wildcard lead).Captures o token) :
    o.leads = .strict ∧ lead ≠ "" := by
  have hrule : ¬ (o.leads = .lenient ∨ lead = "") := fun hr => hc ⟨ht, Ne.symm hp, hr⟩
  rw [not_or] at hrule
  cases hl : o.leads with
  | lenient => exact absurd hl hrule.1
  | strict => exact ⟨rfl, hrule.2⟩

/-- A parameter refuses only the empty text, and only if it may not do without a token. -/
theorem required_of_refuses {o : Options} {token name : String} {a : Arity}
    (hp : ¬ (param name a).Passes token) (hc : ¬ (param name a).Captures o token) :
    (a = .one ∨ a = .oneOrMore) ∧ token = "" := by
  cases a with
  | one => exact ⟨Or.inl rfl, Decidable.not_not.mp hp⟩
  | oneOrMore => exact ⟨Or.inr rfl, Decidable.not_not.mp hc⟩
  | zeroOrOne => exact absurd trivial hp
  | zeroOrMore => exact absurd trivial hc

section Meet

variable {o : Options} {left : List String} {s : Segment}

theorem meet_of_passes (h : s.Passes (nextToken left)) :
    s.meet o left =
      (s.binding? o.decoding (nextToken left)).elim .pass fun b => .bind b.1 b.2 := by
  cases s with
  | literal text => exact if_pos h
  | wildcard lead => exact if_pos h
  | param name a =>
    rw [meet]
    cases a with
    | one =>
      rw [if_neg fun hn => h hn.1]
      rfl
    | zeroOrOne =>
      rw [if_neg fun hn => by simp [Arity.acceptsNone] at hn]
      rfl
    | oneOrMore | zeroOrMore => exact absurd h id

theorem meet_of_captures (h : s.Captures o (nextToken left)) :
    s.meet o left =
      (s.restBinding? o.decoding left).elim (.capture (Path.ofTokens left))
        fun b => .bindRest b.1 b.2 := by
  cases s with
  | literal text => exact absurd h id
  | wildcard lead =>
    obtain ⟨hne, hlead, hrule⟩ := h
    have hstrict : ¬ (o.leads = .strict ∧ lead ≠ "") := by
      rintro ⟨hs, hl⟩
      rcases hrule with hr | hr
      · simp [hs] at hr
      · exact hl hr
    rw [meet, if_neg (Ne.symm hlead), if_neg hne, if_neg hstrict]
    rfl
  | param name a =>
    rw [meet]
    cases a with
    | one | zeroOrOne => exact absurd h id
    | oneOrMore =>
      rw [if_neg fun hn => h hn.1]
      rfl
    | zeroOrMore =>
      rw [if_neg fun hn => by simp [Arity.acceptsNone] at hn]
      rfl

theorem meet_of_refuses (hp : ¬ s.Passes (nextToken left))
    (hc : ¬ s.Captures o (nextToken left)) :
    s.meet o left = .refuse (s.refusal (nextToken left)) := by
  cases s with
  | literal text => exact if_neg hp
  | wildcard lead =>
    have hlead : ¬ lead = nextToken left := hp
    rw [meet, if_neg hlead, refusal]
    by_cases hne : nextToken left = ""
    · rw [if_pos hne, if_pos hne]
    · rw [if_neg hne, if_pos (strict_of_refuses hne hp hc), if_neg hne]
  | param name a =>
    obtain ⟨ha, hempty⟩ := required_of_refuses hp hc
    rcases ha with rfl | rfl <;> exact if_pos ⟨hempty, rfl⟩

end Meet
end Segment

/-! ## One step of a walk -/

/-- Puts bindings before those of a finding. -/
def Findings.after (bs : List (String × String)) (f : Findings) : Findings :=
  { f with bindings := bs ++ f.bindings }

theorem Findings.after_nil : Findings.after [] = id := rfl

section Step

variable {o : Options} {s : Segment} {segments : List Segment} {left : List String}

theorem walk_cons_of_passes (h : s.Passes (nextToken left)) :
    walk o (s :: segments) left =
      (walk o segments left.tail).map
        (Findings.after (s.binding? o.decoding (nextToken left)).toList) := by
  rw [walk, Segment.meet_of_passes h]
  cases s.binding? o.decoding (nextToken left) with
  | none => simp [Findings.after_nil]
  | some b => rfl

theorem walk_cons_of_captures (h : s.Captures o (nextToken left)) :
    walk o (s :: segments) left =
      some { bindings := (s.restBinding? o.decoding left).toList
             rest := s.capturedRest? left } := by
  rw [walk, Segment.meet_of_captures h]
  cases s with
  | literal text => exact absurd h id
  | wildcard lead => simp [Segment.restBinding?, Segment.capturedRest?, Path.ofTokens_eq]
  | param name a => rfl

theorem walk_cons_of_refuses (hp : ¬ s.Passes (nextToken left))
    (hc : ¬ s.Captures o (nextToken left)) : walk o (s :: segments) left = none := by
  rw [walk, Segment.meet_of_refuses hp hc]

end Step

/-! ## The whole walk -/

def PassesAt (segments : List Segment) (tokens : List String) (i : Nat) : Prop :=
  ∃ s, segments[i]? = some s ∧ s.Passes (tokenAt tokens i)

def CapturesAt (o : Options) (segments : List Segment) (tokens : List String) (i : Nat) : Prop :=
  ∃ s, segments[i]? = some s ∧ s.Captures o (tokenAt tokens i)

/-- The walk ends at position `k`: all segments before it pass, and the one there captures, or it
is past the last one and no token is left over. -/
def StopsAt (o : Options) (segments : List Segment) (tokens : List String) (k : Nat) : Prop :=
  (∀ i < k, PassesAt segments tokens i) ∧
    (CapturesAt o segments tokens k ∨ k = segments.length ∧ tokens.length ≤ segments.length)

/-- What the segment at position `i` binds on the way. -/
def bindingAt (d : Decoding) (segments : List Segment) (tokens : List String) (i : Nat) :
    Option (String × String) :=
  segments[i]?.bind (Segment.binding? d (tokenAt tokens i))

/-- What a walk that ends at position `k` has found: the parameters before it in order, and what
the segment there takes of the tokens from `k` on. -/
def findingsAt (d : Decoding) (segments : List Segment) (tokens : List String) (k : Nat) :
    Findings where
  bindings := (List.range k).filterMap (bindingAt d segments tokens)
    ++ (segments[k]?.bind (Segment.restBinding? d (tokens.drop k))).toList
  rest := segments[k]?.bind (Segment.capturedRest? (tokens.drop k))

/-- A rest is captured by a wildcard, and it is what is left of the path. -/
theorem rest_findingsAt_eq_some_iff {d : Decoding} {segments : List Segment}
    {tokens : List String} {k : Nat} {rest : String} :
    (findingsAt d segments tokens k).rest = some rest ↔
      (∃ lead, segments[k]? = some (.wildcard lead)) ∧ rest = Path.ofTokens (tokens.drop k) := by
  rw [findingsAt, Option.bind_eq_some_iff]
  constructor
  · rintro ⟨s, hs, hrest⟩
    cases s with
    | literal text | param name a => simp [Segment.capturedRest?] at hrest
    | wildcard lead =>
      rw [Path.ofTokens_eq]
      exact ⟨⟨lead, hs⟩, (Option.some.inj hrest).symm⟩
  · rintro ⟨⟨lead, hs⟩, rfl⟩
    exact ⟨_, hs, by rw [Path.ofTokens_eq]; rfl⟩

section Shift

variable {o : Options} {d : Decoding} {s : Segment} {segments : List Segment}
  {tokens : List String}

theorem passesAt_zero : PassesAt (s :: segments) tokens 0 ↔ s.Passes (nextToken tokens) := by
  simp [PassesAt, tokenAt_zero]

theorem passesAt_succ {i : Nat} :
    PassesAt (s :: segments) tokens (i + 1) ↔ PassesAt segments tokens.tail i := by
  simp [PassesAt, tokenAt_succ]

theorem capturesAt_zero :
    CapturesAt o (s :: segments) tokens 0 ↔ s.Captures o (nextToken tokens) := by
  simp [CapturesAt, tokenAt_zero]

theorem capturesAt_succ {i : Nat} :
    CapturesAt o (s :: segments) tokens (i + 1) ↔ CapturesAt o segments tokens.tail i := by
  simp [CapturesAt, tokenAt_succ]

theorem stopsAt_zero :
    StopsAt o (s :: segments) tokens 0 ↔ s.Captures o (nextToken tokens) := by
  simp [StopsAt, capturesAt_zero]

theorem forall_passesAt_succ {k : Nat} :
    (∀ i < k + 1, PassesAt (s :: segments) tokens i) ↔
      s.Passes (nextToken tokens) ∧ ∀ i < k, PassesAt segments tokens.tail i := by
  constructor
  · intro h
    exact ⟨passesAt_zero.mp (h 0 (by omega)), fun i hi => passesAt_succ.mp (h (i + 1) (by omega))⟩
  · rintro ⟨h0, h⟩ i hi
    cases i with
    | zero => exact passesAt_zero.mpr h0
    | succ i => exact passesAt_succ.mpr (h i (by omega))

theorem stopsAt_succ {k : Nat} :
    StopsAt o (s :: segments) tokens (k + 1) ↔
      s.Passes (nextToken tokens) ∧ StopsAt o segments tokens.tail k := by
  have hlen : tokens.length ≤ segments.length + 1 ↔ tokens.tail.length ≤ segments.length := by
    rw [List.length_tail]
    omega
  simp only [StopsAt, forall_passesAt_succ, capturesAt_succ, List.length_cons, hlen,
    Nat.add_right_cancel_iff, and_assoc]

theorem findingsAt_zero :
    findingsAt d (s :: segments) tokens 0 =
      { bindings := (s.restBinding? d tokens).toList, rest := s.capturedRest? tokens } := rfl

theorem findingsAt_succ (k : Nat) :
    findingsAt d (s :: segments) tokens (k + 1) =
      (findingsAt d segments tokens.tail k).after
        (s.binding? d (nextToken tokens)).toList := by
  have hshift : bindingAt d (s :: segments) tokens ∘ Nat.succ =
      bindingAt d segments tokens.tail := by
    funext i
    simp [bindingAt, tokenAt_succ]
  have hzero : bindingAt d (s :: segments) tokens 0 = s.binding? d (nextToken tokens) := by
    simp [bindingAt, tokenAt_zero]
  simp only [findingsAt, Findings.after, List.range_succ_eq_map, List.filterMap_cons,
    List.filterMap_map, hshift, hzero, List.getElem?_cons_succ, List.drop_tail]
  cases s.binding? d (nextToken tokens) <;> rfl

end Shift

theorem stopsAt_nil {o : Options} {tokens : List String} {k : Nat} :
    StopsAt o [] tokens k ↔ k = 0 ∧ tokens = [] := by
  constructor
  · rintro ⟨-, ⟨s, hs, -⟩ | ⟨hk, hlen⟩⟩
    · simp at hs
    · exact ⟨hk, List.eq_nil_of_length_eq_zero (Nat.le_zero.mp hlen)⟩
  · rintro ⟨rfl, rfl⟩
    exact ⟨fun i hi => absurd hi (by omega), Or.inr ⟨rfl, Nat.le_refl _⟩⟩

theorem StopsAt.le {o : Options} {segments : List Segment} {tokens : List String} {j k : Nat}
    (hj : StopsAt o segments tokens j) (hk : StopsAt o segments tokens k) : k ≤ j := by
  refine Nat.le_of_not_lt fun hlt => ?_
  obtain ⟨s, hs, hp⟩ := hk.1 j hlt
  obtain ⟨u, hu, hc⟩ | ⟨rfl, -⟩ := hj.2
  · cases hs.symm.trans hu
    exact Segment.not_captures_of_passes hp hc
  · simp at hs

/-- There is at most one position to end at. -/
theorem StopsAt.unique {o : Options} {segments : List Segment} {tokens : List String} {j k : Nat}
    (hj : StopsAt o segments tokens j) (hk : StopsAt o segments tokens k) : j = k :=
  Nat.le_antisymm (hk.le hj) (hj.le hk)

/-- **Where a walk ends.** It succeeds exactly when some position stops it, with what is found
there. -/
theorem walk_eq_some_iff {o : Options} {segments : List Segment} {tokens : List String}
    {f : Findings} :
    walk o segments tokens = some f ↔
      ∃ k, StopsAt o segments tokens k ∧ f = findingsAt o.decoding segments tokens k := by
  induction segments generalizing tokens f with
  | nil =>
    cases tokens with
    | nil => simp [walk, stopsAt_nil, findingsAt, eq_comm]
    | cons t ts => simp [walk, stopsAt_nil]
  | cons s segments ih =>
    constructor
    · intro h
      by_cases hp : s.Passes (nextToken tokens)
      · rw [walk_cons_of_passes hp, Option.map_eq_some_iff] at h
        obtain ⟨g, hg, rfl⟩ := h
        obtain ⟨k, hk, rfl⟩ := ih.mp hg
        exact ⟨k + 1, stopsAt_succ.mpr ⟨hp, hk⟩, (findingsAt_succ k).symm⟩
      · by_cases hc : s.Captures o (nextToken tokens)
        · rw [walk_cons_of_captures hc, Option.some_inj] at h
          exact ⟨0, stopsAt_zero.mpr hc, h.symm⟩
        · simp [walk_cons_of_refuses hp hc] at h
    · rintro ⟨k, hk, rfl⟩
      cases k with
      | zero =>
        rw [walk_cons_of_captures (stopsAt_zero.mp hk), findingsAt_zero]
      | succ k =>
        obtain ⟨hp, hk⟩ := stopsAt_succ.mp hk
        rw [walk_cons_of_passes hp, ih.mpr ⟨k, hk, rfl⟩, findingsAt_succ]
        rfl

theorem Template.resolve_eq_some_iff {t : Template} {path : String} {seed : Params} {m : Match} :
    t.resolve path seed = some m ↔
      ∃ k, StopsAt t.options t.segments (Path.tokens path) k ∧
        m = (findingsAt t.options.decoding t.segments (Path.tokens path) k).toMatch seed := by
  rw [resolve, matchTokens, Option.map_eq_some_iff]
  constructor
  · rintro ⟨f, hf, rfl⟩
    obtain ⟨k, hk, rfl⟩ := walk_eq_some_iff.mp hf
    exact ⟨k, hk, rfl⟩
  · rintro ⟨k, hk, rfl⟩
    exact ⟨_, walk_eq_some_iff.mpr ⟨k, hk, rfl⟩, rfl⟩

theorem isSome_walk_iff {o : Options} {segments : List Segment} {tokens : List String} :
    (walk o segments tokens).isSome ↔ ∃ k, StopsAt o segments tokens k := by
  rw [Option.isSome_iff_exists]
  constructor
  · rintro ⟨f, hf⟩
    obtain ⟨k, hk, -⟩ := walk_eq_some_iff.mp hf
    exact ⟨k, hk⟩
  · rintro ⟨k, hk⟩
    exact ⟨_, walk_eq_some_iff.mpr ⟨k, hk, rfl⟩⟩

/-- The two ways to stop: inside the template, or behind it with nothing left over. -/
theorem exists_stopsAt_iff {o : Options} {segments : List Segment} {tokens : List String} :
    (∃ k, StopsAt o segments tokens k) ↔
      (∃ k < segments.length,
        CapturesAt o segments tokens k ∧ ∀ i < k, PassesAt segments tokens i) ∨
      (∀ i < segments.length, PassesAt segments tokens i) ∧ tokens.length ≤ segments.length := by
  constructor
  · rintro ⟨k, hpass, hc | ⟨rfl, hlen⟩⟩
    · obtain ⟨s, hs, -⟩ := id hc
      exact Or.inl ⟨k, (List.getElem?_eq_some_iff.mp hs).1, hc, hpass⟩
    · exact Or.inr ⟨hpass, hlen⟩
  · rintro (⟨k, -, hc, hpass⟩ | ⟨hpass, hlen⟩)
    · exact ⟨k, hpass, Or.inl hc⟩
    · exact ⟨_, hpass, Or.inr ⟨rfl, hlen⟩⟩

/-- **Matching by position.** Tokens match exactly when some segment captures and all before it
pass, or all segments pass and no token is left over. The match then holds the seed, overwritten
in order by the parameters before the position and by the named rest there, and the rest that a
wildcard captures there. -/
theorem matchTokens_by_position (o : Options) (segments : List Segment) (tokens : List String)
    (seed : Params) :
    ((matchTokens o segments tokens seed).isSome ↔
      (∃ k < segments.length,
        CapturesAt o segments tokens k ∧ ∀ i < k, PassesAt segments tokens i) ∨
      (∀ i < segments.length, PassesAt segments tokens i) ∧ tokens.length ≤ segments.length) ∧
    ∀ m, matchTokens o segments tokens seed = some m ↔
      ∃ k, StopsAt o segments tokens k ∧
        m.rest = segments[k]?.bind (Segment.capturedRest? (tokens.drop k)) ∧
        m.params =
          ((List.range k).filterMap (bindingAt o.decoding segments tokens)
            ++ (segments[k]?.bind (Segment.restBinding? o.decoding (tokens.drop k))).toList).foldl
            (fun ps b => ps.insert b.1 b.2) seed := by
  refine ⟨?_, fun m => ?_⟩
  · rw [matchTokens, Option.isSome_map, isSome_walk_iff, exists_stopsAt_iff]
  · rw [matchTokens, Option.map_eq_some_iff]
    constructor
    · rintro ⟨f, hf, rfl⟩
      obtain ⟨k, hk, rfl⟩ := walk_eq_some_iff.mp hf
      exact ⟨k, hk, rfl, rfl⟩
    · rintro ⟨k, hk, hrest, hparams⟩
      refine ⟨_, walk_eq_some_iff.mpr ⟨k, hk, rfl⟩, ?_⟩
      cases m with
      | mk params rest =>
        simp only at hrest hparams
        rw [hrest, hparams]
        rfl

end PathTemplate
