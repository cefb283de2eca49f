import PathTemplate.Proofs.Bindings
import PathTemplate.Proofs.Rendering
import PathTemplate.Proofs.Stops

/-!
The two phases of a walk. As long as there are tokens, each segment takes one. What follows takes
all that is left, or else meets the end of the path, where a parameter can only be bound to the
empty text. `exists_ending` splits every successful walk in this way; in the other direction
`walk_samples` makes up tokens that lead through the first phase, and `walk_nil_right` says
what the second comes to.
-/

namespace PathTemplate

theorem Findings.after_after (as bs : List (String × String)) (f : Findings) :
    (f.after bs).after as = f.after (as ++ bs) := by
  simp [Findings.after]

/-- The parameters of a template by name. -/
def names (segments : List Segment) : List String :=
  segments.filterMap fun
    | .param name _ => some name
    | _ => none

theorem names_cons (s : Segment) (segments : List Segment) (d : Decoding) (token : String) :
    names (s :: segments) =
      (s.binding? d token).toList.map Prod.fst ++ names segments := by
  cases s <;> rfl

/-- A parameter for all tokens that are left. -/
def Segment.takesRest : Segment → Bool
  | param _ a => a.takesRest
  | _ => false

/-- What a template lists: nothing behind a parameter that takes the rest. -/
theorem mem_parametersOf_cons {s : Segment} {segments : List Segment} {name : String}
    {p : Presence} :
    (name, p) ∈ Template.parametersOf (s :: segments) ↔
      (∃ a, s = .param name a ∧ a.presence = p) ∨
        s.takesRest = false ∧ (name, p) ∈ Template.parametersOf segments := by
  cases s with
  | literal text | wildcard lead => simp [Template.parametersOf, Segment.takesRest]
  | param n a =>
    cases ha : a.takesRest <;>
      simp [Template.parametersOf, Segment.takesRest, ha, eq_comm, and_assoc]

/-! ## While there are tokens -/

namespace Segment

/-- The walk can go on behind this segment with a token. -/
def admitsToken : Segment → Bool
  | literal text => text ≠ ""
  | wildcard lead => lead ≠ ""
  | param _ a => !a.takesRest

/-- A token behind which it can go on. -/
def sample : Segment → String
  | literal text => text
  | wildcard lead => lead
  | param .. => "x"

theorem admitsToken_of_passes {s : Segment} {token : String} (h : s.Passes token)
    (ht : token ≠ "") : s.admitsToken = true := by
  cases s with
  | literal text => exact decide_eq_true (fun he => ht (h.symm.trans he))
  | wildcard lead => exact decide_eq_true (fun he => ht (h.symm.trans he))
  | param name a => simp [admitsToken, takesRest_of_passes h]

theorem passes_sample {s : Segment} (h : s.admitsToken = true) : s.Passes s.sample := by
  cases s with
  | literal text => rfl
  | wildcard lead => rfl
  | param name a =>
    cases a with
    | one => exact (by decide : "x" ≠ "")
    | zeroOrOne => trivial
    | oneOrMore | zeroOrMore => exact absurd h (by simp [admitsToken, Arity.takesRest])

theorem value_ne_empty_of_binding {d : Decoding} {token : String} {s : Segment}
    {b : String × String} (ht : token ≠ "") (h : s.binding? d token = some b) : b.2 ≠ "" := by
  cases s with
  | literal text => simp [binding?] at h
  | wildcard lead => simp [binding?] at h
  | param name a =>
    cases Option.some.inj h
    exact Escape.decode_ne_empty d ht

theorem isToken_sample {s : Segment} (h : s.admitsToken = true) (hs : '/' ∉ s.text.toList) :
    Path.IsToken s.sample := by
  cases s with
  | literal text => exact ⟨of_decide_eq_true h, hs⟩
  | wildcard lead => exact ⟨of_decide_eq_true h, hs⟩
  | param name a => exact ⟨by simp [sample], by simp [sample]⟩

end Segment

theorem slash_not_mem_text (text : String) {s : Segment}
    (h : s ∈ (Template.ofString text).segments) : '/' ∉ s.text.toList := by
  obtain ⟨token, ht, rfl⟩ := List.mem_map.mp h
  exact fun hm => (Path.isToken_of_mem_tokens ht).2 (Segment.text_ofToken_subset token hm)

theorem walk_samples (o : Options) {before : List Segment}
    (h : ∀ s ∈ before, s.admitsToken = true) :
    ∃ bs : List (String × String), bs.map Prod.fst = names before ∧
      ∀ after left, walk o (before ++ after) (before.map Segment.sample ++ left) =
        (walk o after left).map (Findings.after bs) := by
  induction before with
  | nil => exact ⟨[], rfl, fun after left => by simp [Findings.after_nil]⟩
  | cons s before ih =>
    obtain ⟨bs, hbs, hwalk⟩ := ih fun u hu => h u (by simp [hu])
    refine ⟨(s.binding? o.decoding s.sample).toList ++ bs, ?_, ?_⟩
    · rw [names_cons s before o.decoding s.sample, List.map_append, hbs]
    · intro after left
      have hp : s.Passes (nextToken (s.sample :: (before.map Segment.sample ++ left))) :=
        Segment.passes_sample (h s (by simp))
      rw [List.map_cons, List.cons_append, List.cons_append, walk_cons_of_passes hp,
        List.tail_cons, hwalk, Option.map_map]
      congr 1
      funext f
      exact Findings.after_after _ _ f

/-! ## Past the end of the path -/

/-- The names that are bound where no token is left, if the walk succeeds there. -/
def namesAtEnd : List Segment → Option (List String)
  | [] => some []
  | .literal text :: rest => if text = "" then namesAtEnd rest else none
  | .wildcard lead :: rest => if lead = "" then namesAtEnd rest else none
  | .param _ .one :: _ | .param _ .oneOrMore :: _ => none
  | .param name .zeroOrOne :: rest => (namesAtEnd rest).map (name :: ·)
  | .param name .zeroOrMore :: _ => some [name]

theorem walk_nil_right (o : Options) (segments : List Segment) :
    walk o segments [] =
      (namesAtEnd segments).map fun ns => { bindings := ns.map fun name => (name, "") } := by
  induction segments with
  | nil => rfl
  | cons s rest ih =>
    cases s with
    | literal text =>
      by_cases ht : text = ""
      · have hp : (Segment.literal text).Passes (nextToken []) := ht
        rw [walk_cons_of_passes hp]
        simp [namesAtEnd, ht, Segment.binding?, Findings.after_nil, ih]
      · have hp : ¬ (Segment.literal text).Passes (nextToken []) := ht
        rw [walk_cons_of_refuses hp id]
        simp [namesAtEnd, ht]
    | wildcard lead =>
      by_cases hl : lead = ""
      · have hp : (Segment.wildcard lead).Passes (nextToken []) := hl
        rw [walk_cons_of_passes hp]
        simp [namesAtEnd, hl, Segment.binding?, Findings.after_nil, ih]
      · have hp : ¬ (Segment.wildcard lead).Passes (nextToken []) := hl
        rw [walk_cons_of_refuses hp fun hc => hc.1 rfl]
        simp [namesAtEnd, hl]
    | param name a =>
      cases a with
      | one =>
        have hp : ¬ (Segment.param name .one).Passes (nextToken []) := fun hp => hp rfl
        rw [walk_cons_of_refuses hp id]
        rfl
      | zeroOrOne =>
        have hp : (Segment.param name .zeroOrOne).Passes (nextToken []) := trivial
        have hvalue : Escape.decode o.decoding (nextToken []) = "" := Escape.decode_empty _
        rw [walk_cons_of_passes hp, List.tail_nil, ih]
        simp only [namesAtEnd, Segment.binding?, hvalue, Option.map_map]
        rfl
      | oneOrMore =>
        have hp : ¬ (Segment.param name .oneOrMore).Passes (nextToken []) := id
        rw [walk_cons_of_refuses hp fun hc => hc rfl]
        rfl
      | zeroOrMore =>
        have hc : (Segment.param name .zeroOrMore).Captures o (nextToken []) := trivial
        rw [walk_cons_of_captures hc]
        rfl

theorem mem_namesAtEnd {segments : List Segment} {ns : List String}
    (h : namesAtEnd segments = some ns) {p : String × Presence}
    (hp : p ∈ Template.parametersOf segments) : p.1 ∈ ns := by
  induction segments generalizing ns with
  | nil => simp [Template.parametersOf] at hp
  | cons s rest ih =>
    cases s with
    | literal text =>
      simp only [namesAtEnd, Option.ite_none_right_eq_some] at h
      exact ih h.2 hp
    | wildcard lead =>
      simp only [namesAtEnd, Option.ite_none_right_eq_some] at h
      exact ih h.2 hp
    | param name a =>
      cases a with
      | one | oneOrMore => simp [namesAtEnd] at h
      | zeroOrOne =>
        obtain ⟨ms, hms, rfl⟩ := Option.map_eq_some_iff.mp h
        rcases List.mem_cons.mp hp with rfl | hp
        · exact List.mem_cons_self
        · exact List.mem_cons_of_mem _ (ih hms hp)
      | zeroOrMore =>
        cases Option.some.inj h
        have hname : p = (name, Presence.optional) := by
          simpa [Template.parametersOf, Arity.takesRest, Arity.presence, Arity.acceptsNone]
            using hp
        simp [hname]

/-! ## The whole walk -/

/-- What may follow the first phase, and what it finds. -/
inductive Ending (o : Options) : List Segment → Findings → Prop
  | captured {lead rest : String} {after : List Segment}
      (h : o.leads = .lenient ∨ lead = "") :
      Ending o (.wildcard lead :: after) { rest := some rest }
  | namedRest {name value : String} {a : Arity} {after : List Segment}
      (ha : a.takesRest = true) (hv : value ≠ "") :
      Ending o (.param name a :: after) { bindings := [(name, value)] }
  | pathEnd {after : List Segment} {ns : List String} (h : namesAtEnd after = some ns) :
      Ending o after { bindings := ns.map fun name => (name, "") }

theorem ending_of_captures {o : Options} {s : Segment} {after : List Segment} {t : String}
    {ts : List String} (ht : t ≠ "") (h : s.Captures o t) :
    Ending o (s :: after)
      { bindings := (s.restBinding? o.decoding (t :: ts)).toList
        rest := s.capturedRest? (t :: ts) } := by
  cases s with
  | literal text => exact absurd h id
  | wildcard lead => exact .captured h.2.2
  | param name a =>
    exact .namedRest (Segment.takesRest_of_captures h)
      (intercalate_ne_empty (Escape.decode_ne_empty o.decoding ht))

/-- **Two phases.** Every successful walk takes tokens with the segments before some position,
binding no parameter to the empty text there, and then comes to one of the endings. -/
theorem exists_ending {o : Options} {segments : List Segment} {tokens : List String}
    {f : Findings} (ht : ∀ t ∈ tokens, t ≠ "") (h : walk o segments tokens = some f) :
    ∃ before after bs e, segments = before ++ after ∧
      (∀ s ∈ before, s.admitsToken = true) ∧ bs.map Prod.fst = names before ∧
      (∀ b ∈ bs, b.2 ≠ "") ∧ Ending o after e ∧ f = e.after bs := by
  induction segments generalizing tokens f with
  | nil =>
    cases tokens with
    | nil =>
      have hend : Ending o [] { bindings := [].map fun name => (name, "") } := .pathEnd rfl
      exact ⟨[], [], [], _, rfl, by simp, rfl, by simp, hend, (Option.some.inj h).symm⟩
    | cons t ts => simp [walk] at h
  | cons s segments ih =>
    cases tokens with
    | nil =>
      rw [walk_nil_right, Option.map_eq_some_iff] at h
      obtain ⟨ns, hns, rfl⟩ := h
      exact ⟨[], s :: segments, [], _, rfl, by simp, rfl, by simp, .pathEnd hns, rfl⟩
    | cons t ts =>
      have ht0 : t ≠ "" := ht t (by simp)
      by_cases hp : s.Passes (nextToken (t :: ts))
      · rw [walk_cons_of_passes hp, Option.map_eq_some_iff] at h
        obtain ⟨g, hg, rfl⟩ := h
        obtain ⟨before, after, bs, e, rfl, hbefore, hnames, hvalues, hend, rfl⟩ :=
          ih (fun u hu => ht u (List.mem_cons_of_mem _ hu)) hg
        refine ⟨s :: before, after, (s.binding? o.decoding t).toList ++ bs, e, rfl, ?_, ?_, ?_,
          hend, Findings.after_after _ _ e⟩
        · intro u hu
          rcases List.mem_cons.mp hu with rfl | hu
          · exact Segment.admitsToken_of_passes hp ht0
          · exact hbefore u hu
        · rw [names_cons s before o.decoding t, List.map_append, hnames]
        · intro b hb
          rcases List.mem_append.mp hb with hb | hb
          · exact Segment.value_ne_empty_of_binding ht0 (Option.mem_toList.mp hb)
          · exact hvalues b hb
      · by_cases hc : s.Captures o (nextToken (t :: ts))
        · rw [walk_cons_of_captures hc] at h
          exact ⟨[], s :: segments, [], _, rfl, by simp, rfl, by simp,
            ending_of_captures ht0 hc, (Option.some.inj h).symm⟩
        · simp [walk_cons_of_refuses hp hc] at h

end PathTemplate
