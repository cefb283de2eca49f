import Mathlib.Data.List.Forall2
import Mathlib.Order.Bounds.Defs
import PathTemplate.Match.Log
import PathTemplate.Proofs.Escapes
import PathTemplate.Proofs.Stops

/-!
What a match reports, said by position. While segments pass, each parameter reports on the token at
its own position (`walkLog_of_forall_passesAt`); the segment where the walk ends then reports on all
tokens that it takes (`walkLog_of_stopsAt`), or that it refuses (`walkLog_of_refusesAt`).
`Template.log_by_position` puts this together: one report for each token that a parameter had to
keep, in order, then the refusal if there was one, then the outcome. What a report is, is said by
its level, its words and its fields (`ReportsKept`, `ReportsRefusal`, `ReportsOutcome`).
-/

namespace PathTemplate

namespace Segment

def isParam : Segment → Bool
  | param .. => true
  | _ => false

end Segment

/-- Segment number `i`, the blank one past the last. -/
def segmentAt (segments : List Segment) (i : Nat) : Segment := segments.getD i .blank

/-- The segment at position `i` neither passes nor captures the token there. -/
def RefusesAt (o : Options) (segments : List Segment) (tokens : List String) (i : Nat) : Prop :=
  ¬ (segmentAt segments i).Passes (tokenAt tokens i) ∧
    ¬ (segmentAt segments i).Captures o (tokenAt tokens i)

/-- The token that a parameter at position `i` takes on the way. -/
def takenAt (segments : List Segment) (tokens : List String) (i : Nat) : Option String :=
  if (segmentAt segments i).isParam then tokens[i]? else none

/-- The tokens that a walk which ends at position `k` hands to parameters: one to each before `k`
if there is one, and all that are left to the one there. -/
def handed (segments : List Segment) (tokens : List String) (k : Nat) : List String :=
  (List.range k).filterMap (takenAt segments tokens)
    ++ if (segmentAt segments k).isParam then tokens.drop k else []

/-- What is wrong with the octets of a token whose escapes are in order. -/
def Escape.octetFault? (d : Decoding) (token : String) : Option Text.Utf8.Fault :=
  match read d token with
  | .error (.notUtf8 cause) => some cause
  | _ => none

/-- The event reports that the token is kept as it is, and for which of the two reasons. -/
structure ReportsKept (d : Decoding) (token : String) (e : Event) : Prop where
  level : e.level = .debug
  malformed : e.message = "malformed percent escape, keeping raw segment" ↔
    ¬ Escape.WellEscaped token.toList
  notUtf8 : e.message = "decoded segment is not UTF-8, keeping raw segment" ↔
    Escape.WellEscaped token.toList
  fields : e.fields = ("segment", .string token) ::
    ((Escape.octetFault? d token).map fun cause => ("error", .string cause.message)).toList

/-- The event reports the refusal at position `k` and its cause. The token is shown unless it is
what is missing. -/
structure ReportsRefusal (o : Options) (segments : List Segment) (tokens : List String) (k : Nat)
    (e : Event) : Prop where
  level : e.level = .trace
  lead : e.message = "wildcard prefix mismatch" ↔
    (∃ lead, segmentAt segments k = .wildcard lead ∧ lead ≠ "") ∧ tokenAt tokens k ≠ "" ∧
      o.leads = .strict
  missing : e.message = "missing required segment" ↔
    (∃ name a, segmentAt segments k = .param name a ∧ (a = .one ∨ a = .oneOrMore)) ∧
      tokens.length ≤ k
  text : e.message = "segment mismatch" ↔
    e.message ≠ "wildcard prefix mismatch" ∧ e.message ≠ "missing required segment"
  fields : e.fields =
    [("index", .integer k), ("segment", .string (segmentAt segments k).render)] ++
      if e.message = "missing required segment" then []
      else [("val", .string (tokenAt tokens k))]

/-- The event reports whether the path matches the template. -/
structure ReportsOutcome (t : Template) (path : String) (matched : Bool) (e : Event) : Prop where
  level : e.level = .trace
  message : e.message = "route match"
  fields : e.fields =
    [("path", .string path), ("pattern", .string t.render), ("matched", .boolean matched)]

/-! ## Reports on tokens -/

namespace Escape

variable {d : Decoding} {token : String}

theorem log_of_decodable (h : Decodable d token) : log d token = [] := by
  rw [log, read_of_decodable h]

theorem log_of_not_decodable (h : ¬ Decodable d token) :
    ∃ e, log d token = [e] ∧ ReportsKept d token e := by
  cases hread : read d token with
  | ok text => exact absurd (decodable_iff.mpr ⟨text, hread⟩) h
  | error cause =>
    have hcause : cause = .malformed ↔ ¬ WellEscaped token.toList := by
      rw [← read_eq_malformed_iff (d := d), hread, Except.error.injEq]
    refine ⟨.keptRaw cause token, by rw [log, hread], ?_⟩
    cases cause with
    | malformed =>
      have hnot : ¬ WellEscaped token.toList := hcause.mp rfl
      constructor <;> simp [Event.level, Event.message, Event.fields, octetFault?, hread, hnot]
    | notUtf8 cause =>
      have hwell : WellEscaped token.toList := by
        by_contra hn
        cases hcause.mpr hn
      constructor <;> simp [Event.level, Event.message, Event.fields, octetFault?, hread, hwell]

theorem log_empty (d : Decoding) : log d "" = [] := by
  apply log_of_decodable
  cases d <;> decide

theorem forall₂_log (d : Decoding) (tokens : List String) :
    List.Forall₂ (ReportsKept d) (tokens.filter fun token => ¬ Decodable d token)
      (tokens.flatMap (log d)) := by
  induction tokens with
  | nil => exact .nil
  | cons token tokens ih =>
    by_cases h : Decodable d token
    · simpa [h, log_of_decodable h] using ih
    · obtain ⟨e, he, hkept⟩ := log_of_not_decodable h
      simpa [h, he] using List.Forall₂.cons hkept ih

end Escape

/-! ## One step -/

section Step

variable {o : Options} {s : Segment} {segments : List Segment} {left : List String} {n : Nat}

theorem walkLog_cons_of_passes (h : s.Passes (nextToken left)) :
    walkLog o n (s :: segments) left =
      (if s.isParam then left.head? else none).toList.flatMap (Escape.log o.decoding) ++
        walkLog o (n + 1) segments left.tail := by
  rw [walkLog, Segment.meet_of_passes h]
  cases s with
  | literal text | wildcard lead => rfl
  | param name a =>
    cases left with
    | nil => simp [Segment.binding?, Segment.isParam, nextToken, Escape.log_empty]
    | cons token left => simp [Segment.binding?, Segment.isParam, nextToken]

theorem walkLog_cons_of_captures (h : s.Captures o (nextToken left)) :
    walkLog o n (s :: segments) left =
      (if s.isParam then left else []).flatMap (Escape.log o.decoding) := by
  rw [walkLog, Segment.meet_of_captures h]
  cases s <;> rfl

/-- A refusal is reported, by the blank segment if the template has no other. -/
theorem walkLog_of_refuses (hp : ¬ (segments.headD .blank).Passes (nextToken left))
    (hc : ¬ (segments.headD .blank).Captures o (nextToken left)) :
    walkLog o n segments left =
      [.refused ((segments.headD .blank).refusal (nextToken left)) n (segments.headD .blank)
        (nextToken left)] := by
  cases segments with
  | cons s segments =>
    rw [List.headD_cons] at hp hc ⊢
    rw [walkLog, Segment.meet_of_refuses hp hc]
  | nil =>
    cases left with
    | nil => exact absurd rfl hp
    | cons token left => rfl

end Step

/-! ## The run up to its end -/

section Shift

variable {o : Options} {s : Segment} {segments : List Segment} {tokens : List String}

theorem nextToken_drop (tokens : List String) (k : Nat) :
    nextToken (tokens.drop k) = tokenAt tokens k := by
  simp [nextToken, tokenAt, List.headD_eq_head?_getD, List.getD_eq_getElem?_getD]

theorem headD_drop (segments : List Segment) (k : Nat) :
    (segments.drop k).headD .blank = segmentAt segments k := by
  simp [segmentAt, List.headD_eq_head?_getD, List.getD_eq_getElem?_getD]

theorem segmentAt_of_getElem? {i : Nat} (h : segments[i]? = some s) : segmentAt segments i = s := by
  rw [segmentAt, List.getD_eq_getElem?_getD, h, Option.getD_some]

theorem refusesAt_zero :
    RefusesAt o (s :: segments) tokens 0 ↔
      ¬ s.Passes (nextToken tokens) ∧ ¬ s.Captures o (nextToken tokens) := by
  rw [RefusesAt, tokenAt_zero]
  rfl

theorem refusesAt_succ {i : Nat} :
    RefusesAt o (s :: segments) tokens (i + 1) ↔ RefusesAt o segments tokens.tail i := by
  rw [RefusesAt, tokenAt_succ]
  rfl

theorem takenAt_zero :
    takenAt (s :: segments) tokens 0 = if s.isParam then tokens.head? else none := by
  rw [takenAt, List.head?_eq_getElem?]
  rfl

theorem takenAt_succ (i : Nat) :
    takenAt (s :: segments) tokens (i + 1) = takenAt segments tokens.tail i := by
  rw [takenAt, takenAt, List.getElem?_tail]
  rfl

theorem filterMap_takenAt_succ (k : Nat) :
    (List.range (k + 1)).filterMap (takenAt (s :: segments) tokens) =
      (if s.isParam then tokens.head? else none).toList
        ++ (List.range k).filterMap (takenAt segments tokens.tail) := by
  have hshift : takenAt (s :: segments) tokens ∘ Nat.succ = takenAt segments tokens.tail :=
    funext takenAt_succ
  rw [List.range_succ_eq_map, List.filterMap_cons, List.filterMap_map, hshift, takenAt_zero]
  cases (if s.isParam then tokens.head? else none) <;> rfl

end Shift

variable {o : Options} {segments : List Segment} {tokens : List String} {k : Nat}

/-- While segments pass, parameters report on the tokens that they take. -/
theorem walkLog_of_forall_passesAt (h : ∀ i < k, PassesAt segments tokens i) (n : Nat) :
    walkLog o n segments tokens =
      ((List.range k).filterMap (takenAt segments tokens)).flatMap (Escape.log o.decoding) ++
        walkLog o (n + k) (segments.drop k) (tokens.drop k) := by
  induction k generalizing segments tokens n with
  | zero => rfl
  | succ k ih =>
    cases segments with
    | nil =>
      obtain ⟨s, hs, -⟩ := h 0 (by omega)
      simp at hs
    | cons s segments =>
      obtain ⟨hp, hrest⟩ := forall_passesAt_succ.mp h
      have hindex : n + 1 + k = n + (k + 1) := by omega
      rw [walkLog_cons_of_passes hp, ih hrest, hindex, filterMap_takenAt_succ,
        List.flatMap_append, List.append_assoc, List.drop_tail, List.drop_succ_cons]

theorem walkLog_of_stopsAt (h : StopsAt o segments tokens k) (n : Nat) :
    walkLog o n segments tokens = (handed segments tokens k).flatMap (Escape.log o.decoding) := by
  rw [walkLog_of_forall_passesAt h.1, handed, List.flatMap_append]
  congr 1
  obtain ⟨s, hs, hc⟩ | ⟨rfl, hlen⟩ := h.2
  · rw [List.drop_eq_getElem?_toList_append, hs, Option.toList_some, List.singleton_append,
      walkLog_cons_of_captures (by rwa [nextToken_drop]), segmentAt_of_getElem? hs]
  · have hleft : tokens.drop segments.length = [] := List.drop_eq_nil_of_le hlen
    rw [hleft, List.drop_length, ite_self]
    rfl

/-- A parameter refuses only if no token is left. -/
theorem drop_eq_nil_of_refusesAt (ht : ∀ t ∈ tokens, t ≠ "") (h : RefusesAt o segments tokens k)
    (hs : (segmentAt segments k).isParam) : tokens.drop k = [] := by
  rw [List.drop_eq_nil_iff, ← tokenAt_eq_empty_iff ht]
  obtain ⟨hp, hc⟩ := h
  cases hseg : segmentAt segments k with
  | literal text | wildcard lead => simp [hseg, Segment.isParam] at hs
  | param name a =>
    rw [hseg] at hp hc
    exact (Segment.required_of_refuses hp hc).2

theorem walkLog_of_refusesAt (ht : ∀ t ∈ tokens, t ≠ "")
    (hpass : ∀ i < k, PassesAt segments tokens i) (h : RefusesAt o segments tokens k) (n : Nat) :
    walkLog o n segments tokens =
      (handed segments tokens k).flatMap (Escape.log o.decoding) ++
        [.refused ((segmentAt segments k).refusal (tokenAt tokens k)) (n + k)
          (segmentAt segments k) (tokenAt tokens k)] := by
  have hhanded : (if (segmentAt segments k).isParam then tokens.drop k else []) = [] := by
    by_cases hs : (segmentAt segments k).isParam
    · rw [if_pos hs, drop_eq_nil_of_refusesAt ht h hs]
    · rw [if_neg hs]
  rw [walkLog_of_forall_passesAt hpass, handed, hhanded, List.append_nil, walkLog_of_refuses,
    headD_drop, nextToken_drop]
  · rw [headD_drop, nextToken_drop]
    exact h.1
  · rw [headD_drop, nextToken_drop]
    exact h.2

/-! ## Where a walk ends -/

theorem walk_eq_none_of_refusesAt (hpass : ∀ i < k, PassesAt segments tokens i)
    (h : RefusesAt o segments tokens k) : walk o segments tokens = none := by
  induction segments generalizing tokens k with
  | nil =>
    cases k with
    | succ k =>
      obtain ⟨s, hs, -⟩ := hpass 0 (by omega)
      simp at hs
    | zero =>
      cases tokens with
      | nil => exact absurd rfl h.1
      | cons t ts => rfl
  | cons s segments ih =>
    cases k with
    | zero =>
      obtain ⟨hp, hc⟩ := refusesAt_zero.mp h
      exact walk_cons_of_refuses hp hc
    | succ k =>
      obtain ⟨hp, hrest⟩ := forall_passesAt_succ.mp hpass
      rw [walk_cons_of_passes hp, ih hrest (refusesAt_succ.mp h), Option.map_none]

theorem exists_stopsAt_or_refusesAt (o : Options) (segments : List Segment)
    (ht : ∀ t ∈ tokens, t ≠ "") :
    ∃ k, StopsAt o segments tokens k ∨
      (∀ i < k, PassesAt segments tokens i) ∧ RefusesAt o segments tokens k := by
  induction segments generalizing tokens with
  | nil =>
    cases tokens with
    | nil => exact ⟨0, Or.inl (stopsAt_nil.mpr ⟨rfl, rfl⟩)⟩
    | cons t ts =>
      have hblank : RefusesAt o [] (t :: ts) 0 :=
        ⟨fun hp => ht t (by simp) (Eq.symm hp), fun hc => hc⟩
      exact ⟨0, Or.inr ⟨by omega, hblank⟩⟩
  | cons s segments ih =>
    by_cases hp : s.Passes (nextToken tokens)
    · have htail : ∀ t ∈ tokens.tail, t ≠ "" := fun t h => ht t (List.mem_of_mem_tail h)
      obtain ⟨k, hk | ⟨hpass, hk⟩⟩ := ih htail
      · exact ⟨k + 1, Or.inl (stopsAt_succ.mpr ⟨hp, hk⟩)⟩
      · exact ⟨k + 1, Or.inr ⟨forall_passesAt_succ.mpr ⟨hp, hpass⟩, refusesAt_succ.mpr hk⟩⟩
    · by_cases hc : s.Captures o (nextToken tokens)
      · exact ⟨0, Or.inl (stopsAt_zero.mpr hc)⟩
      · exact ⟨0, Or.inr ⟨by omega, refusesAt_zero.mpr ⟨hp, hc⟩⟩⟩

theorem isLeast_of_refusesAt (hpass : ∀ i < k, PassesAt segments tokens i)
    (h : RefusesAt o segments tokens k) : IsLeast {i | RefusesAt o segments tokens i} k := by
  refine ⟨h, fun i hi => Nat.le_of_not_lt fun hlt => ?_⟩
  obtain ⟨s, hs, hp⟩ := hpass i hlt
  rw [← segmentAt_of_getElem? hs] at hp
  exact hi.1 hp

theorem reportsRefusal_refused (ht : ∀ t ∈ tokens, t ≠ "") (h : RefusesAt o segments tokens k) :
    ReportsRefusal o segments tokens k
      (.refused ((segmentAt segments k).refusal (tokenAt tokens k)) k (segmentAt segments k)
        (tokenAt tokens k)) := by
  have hlen : tokenAt tokens k = "" ↔ tokens.length ≤ k := tokenAt_eq_empty_iff ht
  obtain ⟨hp, hc⟩ := h
  cases hs : segmentAt segments k with
  | literal text =>
    constructor <;> simp [hs, Segment.refusal, Event.level, Event.message, Event.fields,
      Mismatch.message]
  | wildcard lead =>
    rw [hs] at hp hc
    by_cases hempty : tokenAt tokens k = ""
    · constructor <;> simp [hs, Segment.refusal, Event.level, Event.message, Event.fields,
        Mismatch.message, hempty]
    · obtain ⟨hstrict, hlead⟩ := Segment.strict_of_refuses hempty hp hc
      constructor <;> simp [hs, Segment.refusal, Event.level, Event.message, Event.fields,
        Mismatch.message, hempty, hstrict, hlead]
  | param name a =>
    rw [hs] at hp hc
    obtain ⟨ha, hempty⟩ := Segment.required_of_refuses hp hc
    constructor <;> simp [hs, Segment.refusal, Event.level, Event.message, Event.fields,
      Mismatch.message, ha, hempty, hlen.mp hempty]

theorem reportsOutcome_resolved (t : Template) (path : String) (matched : Bool) :
    ReportsOutcome t path matched (.resolved path t.render matched) := ⟨rfl, rfl, rfl⟩

/-- **Reports by position.** For some position `k` a match reports each token that was handed to a
parameter up to there and could not be decoded, in order and once. If it succeeds, the walk stops
at `k` and only the outcome follows. If it fails, `k` is the least position that refuses its token;
the refusal there and then the outcome follow. -/
theorem Template.log_by_position (t : Template) (path : String) (seed : Params) :
    ∃ k kept outcome,
      List.Forall₂ (ReportsKept t.options.decoding)
        ((handed t.segments (Path.tokens path) k).filter fun token =>
          ¬ Escape.Decodable t.options.decoding token) kept ∧
      ReportsOutcome t path (t.resolve path seed).isSome outcome ∧
      ((t.resolve path seed).isSome = true ∧
          StopsAt t.options t.segments (Path.tokens path) k ∧
          t.log path seed = kept ++ [outcome] ∨
        t.resolve path seed = none ∧
          IsLeast {i | RefusesAt t.options t.segments (Path.tokens path) i} k ∧
          ∃ refusal, ReportsRefusal t.options t.segments (Path.tokens path) k refusal ∧
            t.log path seed = kept ++ [refusal, outcome]) := by
  have ht : ∀ token ∈ Path.tokens path, token ≠ "" := fun _ => Path.ne_empty_of_mem_tokens
  obtain ⟨k, hk⟩ := exists_stopsAt_or_refusesAt t.options t.segments ht
  refine ⟨k, _, _, Escape.forall₂_log t.options.decoding _, reportsOutcome_resolved t path _, ?_⟩
  obtain hstop | ⟨hpass, hrefuses⟩ := hk
  · have hresolve : (t.resolve path seed).isSome = true := by
      rw [Template.resolve_eq_some_iff.mpr ⟨k, hstop, rfl⟩]
      rfl
    refine Or.inl ⟨hresolve, hstop, ?_⟩
    rw [Template.log, walkLog_of_stopsAt hstop]
  · have hresolve : t.resolve path seed = none := by
      rw [Template.resolve, matchTokens, walk_eq_none_of_refusesAt hpass hrefuses, Option.map_none]
    refine Or.inr ⟨hresolve, isLeast_of_refusesAt hpass hrefuses, _,
      reportsRefusal_refused ht hrefuses, ?_⟩
    rw [Template.log, walkLog_of_refusesAt ht hpass hrefuses, Nat.zero_add, List.append_assoc]
    rfl

example :
    Template.log { Template.ofString "/:id/v*/c" with options := { leads := .strict } }
        "/a%zz/b" {} =
      [.keptRaw .malformed "a%zz", .refused .lead 1 (.wildcard "v") "b",
        .resolved "/a%zz/b" "/:id/v*/c" false] := by decide

end PathTemplate
