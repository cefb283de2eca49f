import Mathlib.Data.List.Forall2
import PathTemplate.Proofs.BoundNames
import PathTemplate.Proofs.NormalForm
import PathTemplate.Proofs.Separators

/-!
What the two decodings have in common. A form reads a plus sign as a space before it takes the
escapes out, and does nothing else (`read_form`). Neither of the two characters takes part in an
escape or in a longer character, so a token is kept under one decoding exactly if it is under the
other, for the same reason (`read_form_eq_error_iff`). Whether a path matches, and where the walk
ends, does not depend on the decoding; only the values of parameters do, and only where there is a
plus sign (`decodings_differ_in_plus`).
-/

namespace PathTemplate

/-! ## Octets that stand for characters of their own -/

namespace Text.Utf8

/-- The octets are the same, or each stands for a character of its own. -/
def Exchangeable (a b : UInt8) : Prop := a = b ∨ a < 0x80 ∧ b < 0x80

theorem low_of_lead? {b : UInt8} {p : Pending} (h : lead? b = some p) : 0x80 ≤ p.low := by
  rcases lead?_cases h with ⟨x, hmin, hmax, rfl⟩ | ⟨x, hmax, rfl⟩ | ⟨x, hmax, rfl⟩
  · cases (lead?_two x hmax hmin).symm.trans h
    exact UInt8.le_refl 0x80
  · cases (lead?_three x hmax).symm.trans h
    dsimp only
    split <;> decide
  · cases (lead?_four x hmax).symm.trans h
    dsimp only
    split <;> decide

theorem map_cons_eq_error_iff {c : Char} {r : Except Fault (List Char)} {fault : Fault} :
    r.map (c :: ·) = .error fault ↔ r = .error fault := by
  cases r <;> simp [Except.map]

/-- **Faults.** Exchanging characters of one octet changes no fault. What is pending asks for an
octet of the upper half, so that all of these break it off. -/
theorem readFrom_eq_error_iff {octets others : List UInt8} {pos : Nat}
    {state : Option (Nat × Pending)} {fault : Fault}
    (h : List.Forall₂ Exchangeable octets others) (hstate : ∀ s ∈ state, 0x80 ≤ s.2.low) :
    readFrom pos state octets = .error fault ↔ readFrom pos state others = .error fault := by
  induction h generalizing pos state with
  | nil => exact Iff.rfl
  | @cons a b octets others hab _ ih =>
    have hnone : ∀ s ∈ (none : Option (Nat × Pending)), 0x80 ≤ s.2.low := by simp
    cases state with
    | none =>
      rcases hab with rfl | ⟨ha, hb⟩
      · by_cases ha : a < 0x80
        · rw [readFrom_ascii ha, readFrom_ascii ha, map_cons_eq_error_iff, map_cons_eq_error_iff]
          exact ih hnone
        · cases hp : lead? a with
          | none => simp only [readFrom, if_neg ha, hp]
          | some p =>
            rw [readFrom_lead hp, readFrom_lead hp]
            exact ih (by simpa using low_of_lead? hp)
      · rw [readFrom_ascii ha, readFrom_ascii hb, map_cons_eq_error_iff, map_cons_eq_error_iff]
        exact ih hnone
    | some s =>
      obtain ⟨start, p⟩ := s
      have hlow : 0x80 ≤ p.low := hstate _ rfl
      have hbreak : ∀ c < 0x80, ¬ (p.low ≤ c ∧ c ≤ p.high) := by
        rintro c hc ⟨hp, -⟩
        exact absurd (UInt8.le_trans hlow hp) (UInt8.not_le.mpr hc)
      rcases hab with rfl | ⟨ha, hb⟩
      · simp only [readFrom]
        split
        · split
          · rw [map_cons_eq_error_iff, map_cons_eq_error_iff]
            exact ih hnone
          · exact ih (by simp)
        · exact Iff.rfl
      · rw [readFrom, readFrom, if_neg (hbreak a ha), if_neg (hbreak b hb)]

end Text.Utf8

/-! ## Tokens -/

namespace Escape

open Text

section Plain

variable {d : Decoding}

theorem hexDigit?_plain (d : Decoding) (c : Char) : hexDigit? (plain d c) = hexDigit? c := by
  cases d with
  | percent => rfl
  | form =>
    by_cases hc : c = '+'
    · subst hc
      decide
    · rw [plain, if_neg hc]

theorem plain_eq_percent_iff {c : Char} : plain d c = '%' ↔ c = '%' := by
  constructor
  · intro h
    exact Decidable.not_not.mp fun hc => plain_ne_percent d hc h
  · rintro rfl
    exact plain_percent d

/-- Escapes stay where they are. -/
theorem wellEscaped_map_plain_iff {cs : List Char} :
    WellEscaped (cs.map (plain d)) ↔ WellEscaped cs := by
  constructor
  · rintro h before after rfl
    obtain ⟨a', b', rest', x, y, hafter, hx, hy⟩ := h (before.map (plain d)) (after.map (plain d))
      (by rw [List.map_append, List.map_cons, plain_percent])
    obtain ⟨a, behind, rfl, rfl, hbehind⟩ := List.map_eq_cons_iff.mp hafter
    obtain ⟨b, rest, rfl, rfl, -⟩ := List.map_eq_cons_iff.mp hbehind
    rw [hexDigit?_plain] at hx hy
    exact ⟨a, b, rest, x, y, rfl, hx, hy⟩
  · intro h before' after' hcs
    obtain ⟨before, behind, rfl, -, hbehind⟩ := List.map_eq_append_iff.mp hcs
    obtain ⟨c, after, rfl, hc, rfl⟩ := List.map_eq_cons_iff.mp hbehind
    obtain rfl := plain_eq_percent_iff.mp hc
    obtain ⟨a, b, rest, x, y, rfl, hx, hy⟩ := h before after rfl
    exact ⟨plain d a, plain d b, rest.map (plain d), x, y, rfl,
      (hexDigit?_plain d a).trans hx, (hexDigit?_plain d b).trans hy⟩

theorem meant_map_plain (cs : List Char) :
    meant .percent (cs.map (plain .form)) = meant .form cs := by
  have hplain : plain .percent = id := rfl
  rw [meant, meant, hplain, List.map_id]

/-- **Forms.** Plus signs are spaces before anything else. -/
theorem read_form (token : String) :
    read .form token = read .percent (token.map (plain .form)) := by
  by_cases h : WellEscaped token.toList
  · have hmap : WellEscaped (token.toList.map (plain .form)) := wellEscaped_map_plain_iff.mpr h
    rw [read, read, String.toList_map, octets?_of_wellEscaped h, octets?_of_wellEscaped hmap,
      meant_map_plain]
  · have hmap : ¬ WellEscaped (token.toList.map (plain .form)) :=
      fun hm => h (wellEscaped_map_plain_iff.mp hm)
    rw [read, read, String.toList_map, octets?_of_not_wellEscaped h,
      octets?_of_not_wellEscaped hmap]

end Plain

/-! ## Tokens that are kept -/

theorem forall₂_meant {cs : List Char} (h : WellEscaped cs) :
    List.Forall₂ Utf8.Exchangeable (meant .percent cs) (meant .form cs) := by
  have hsame : ∀ octets, List.Forall₂ Utf8.Exchangeable octets octets :=
    fun _ => List.forall₂_same.mpr fun _ _ => Or.inl rfl
  induction cs, h using WellEscaped.induct with
  | nil => exact .nil
  | raw c cs hc _ ih =>
    rw [meant_cons_of_ne hc, meant_cons_of_ne hc]
    refine List.rel_append ?_ ih
    by_cases hplus : c = '+'
    · subst hplus
      exact .cons (Or.inr ⟨by decide, by decide⟩) .nil
    · have hplain : plain .form c = c := if_neg hplus
      rw [hplain]
      exact hsame _
  | escape a b x y cs hx hy _ ih =>
    rw [meant_escape hx hy, meant_escape hx hy]
    exact .cons (Or.inl rfl) ih

theorem read_eq_error_iff {d : Decoding} {token : String} {cause : Fault} :
    read d token = .error cause ↔
      ¬ WellEscaped token.toList ∧ cause = .malformed ∨
      WellEscaped token.toList ∧ ∃ fault,
        Utf8.read (meant d token.toList) = .error fault ∧ cause = .notUtf8 fault := by
  by_cases h : WellEscaped token.toList
  · rw [read, octets?_of_wellEscaped h]
    cases hr : Utf8.read (meant d token.toList) with
    | ok cs => simp [h, hr]
    | error fault => simp [h, hr, eq_comm]
  · rw [read, octets?_of_not_wellEscaped h]
    simp [h, eq_comm]

/-- **Kept alike.** Both decodings keep the same tokens, for the same reason. -/
theorem read_form_eq_error_iff {token : String} {cause : Fault} :
    read .form token = .error cause ↔ read .percent token = .error cause := by
  rw [read_eq_error_iff, read_eq_error_iff]
  by_cases h : WellEscaped token.toList
  · have hutf8 : ∀ fault, Utf8.read (meant .percent token.toList) = .error fault ↔
        Utf8.read (meant .form token.toList) = .error fault :=
      fun fault => Utf8.readFrom_eq_error_iff (forall₂_meant h) (by simp)
    simp only [hutf8]
  · simp [h]

theorem decodable_of_read_eq_ok {d : Decoding} {token text : String}
    (h : read .percent token = .ok text) : Decodable d token := by
  rw [decodable_iff]
  cases d with
  | percent => exact ⟨text, h⟩
  | form =>
    cases hform : read .form token with
    | ok value => exact ⟨value, rfl⟩
    | error cause =>
      rw [read_form_eq_error_iff, h] at hform
      cases hform

theorem decode_of_read_eq_error {d : Decoding} {token : String} {cause : Fault}
    (h : read d token = .error cause) : decode d token = token := by
  rw [decode, h]

theorem decode_form_of_read_eq_ok {token text : String} (h : read .percent token = .ok text) :
    decode .form token = decode .percent (token.map (plain .form)) := by
  obtain ⟨value, hform⟩ := decodable_iff.mp (decodable_of_read_eq_ok (d := .form) h)
  rw [decode, hform, decode, ← read_form, hform]

/-- Without a plus sign the decodings agree. -/
theorem decode_form_of_plus_not_mem {token : String} (h : '+' ∉ token.toList) :
    decode .form token = decode .percent token := by
  have hplain : ∀ c ∈ token.toList, plain .form c = id c := by
    intro c hc
    have hne : c ≠ '+' := by
      rintro rfl
      exact h hc
    exact if_neg hne
  have hmap : token.map (plain .form) = token := by
    rw [← String.toList_inj, String.toList_map, List.map_congr_left hplain, List.map_id]
  rw [decode, read_form, hmap, decode]

/-- A plus sign is escaped with its octet in hex digits. -/
theorem decode_append_escaped_plus {d : Decoding} {a b plus : String}
    (hplus : plus = "%2B" ∨ plus = "%2b") (h : Decodable d (a ++ plus ++ b)) :
    decode d (a ++ plus ++ b) = decode d a ++ "+" ++ decode d b := by
  have hdigits : ∃ digit, hexDigit? digit = some 11 ∧ plus.toList = ['%', '2', digit] := by
    rcases hplus with rfl | rfl
    · exact ⟨'B', rfl, by decide⟩
    · exact ⟨'b', rfl, by decide⟩
  obtain ⟨digit, hdigit, htext⟩ := hdigits
  have hoctet : String.utf8EncodeChar '+' = [UInt8.ofNat (2 * 16 + 11)] := by decide
  have hescaped : Escaped plus.toList (String.utf8EncodeChar '+') := by
    rw [htext, hoctet]
    exact .cons rfl hdigit .nil
  have hplain : "+" = String.singleton '+' := by decide
  rw [hplain]
  exact decode_append_escaped hescaped h

end Escape

/-! ## Matches -/

section Stops

variable {o o' : Options} (h : o.leads = o'.leads) {segments : List Segment}
  {tokens : List String} {k : Nat}

include h

theorem Segment.captures_congr {s : Segment} {token : String} :
    s.Captures o token ↔ s.Captures o' token := by
  cases s with
  | literal text => exact Iff.rfl
  | wildcard lead => rw [Captures, Captures, h]
  | param name a => cases a <;> exact Iff.rfl

/-- Where a walk ends does not depend on the decoding. -/
theorem stopsAt_congr : StopsAt o segments tokens k ↔ StopsAt o' segments tokens k := by
  simp only [StopsAt, CapturesAt, Segment.captures_congr h]

/-- A segment meets tokens alike if they are decoded alike. -/
theorem Segment.meet_congr {left : List String}
    (hleft : ∀ t ∈ left, Escape.decode o.decoding t = Escape.decode o'.decoding t)
    (s : Segment) : s.meet o left = s.meet o' left := by
  cases s with
  | literal text => rfl
  | wildcard lead => rw [meet, meet, h]
  | param name a =>
    have hnext : Escape.decode o.decoding (nextToken left) =
        Escape.decode o'.decoding (nextToken left) := by
      cases left with
      | nil => exact (Escape.decode_empty _).trans (Escape.decode_empty _).symm
      | cons t ts => exact hleft t (by simp)
    rw [meet, meet, hnext, List.map_congr_left hleft]

theorem walk_congr
    (htokens : ∀ t ∈ tokens, Escape.decode o.decoding t = Escape.decode o'.decoding t) :
    walk o segments tokens = walk o' segments tokens := by
  induction segments generalizing tokens with
  | nil => cases tokens <;> rfl
  | cons s segments ih =>
    have htail : ∀ t ∈ tokens.tail, Escape.decode o.decoding t = Escape.decode o'.decoding t :=
      fun t ht => htokens t (List.mem_of_mem_tail ht)
    rw [walk, walk, Segment.meet_congr h htokens, ih htail]

end Stops

section Findings

variable (d e : Decoding) {segments : List Segment} {tokens : List String} {k : Nat}

/-- A rest is captured as it is. -/
theorem rest_findingsAt_congr :
    (findingsAt d segments tokens k).rest = (findingsAt e segments tokens k).rest := rfl

theorem mem_params_findingsAt_congr {seed : Params} {name : String} :
    name ∈ ((findingsAt d segments tokens k).toMatch seed).params ↔
      name ∈ ((findingsAt e segments tokens k).toMatch seed).params := by
  rw [Findings.mem_params_seeded_iff _ seed, Findings.mem_params_seeded_iff _ seed,
    mem_params_findingsAt_iff, mem_params_findingsAt_iff]

end Findings

/-- **The two decodings.** A token is kept under both, for the same reason, or under none, and then
a form decodes it with spaces for its plus signs, while an escaped plus sign is one under both. On
every path a template matches under both decodings or none, with the same rest and the same names;
if the path has no plus sign, with the same values too. -/
theorem decodings_differ_in_plus :
    (∀ token : String,
      (∀ cause, Escape.read .form token = .error cause ↔
        Escape.read .percent token = .error cause) ∧
      (∀ d cause, Escape.read d token = .error cause → Escape.decode d token = token) ∧
      ∀ text, Escape.read .percent token = .ok text →
        Escape.decode .form token =
          Escape.decode .percent (token.map fun c => if c = '+' then ' ' else c) ∧
        ∀ d a b plus, plus = "%2B" ∨ plus = "%2b" → token = a ++ plus ++ b →
          Escape.decode d token = Escape.decode d a ++ "+" ++ Escape.decode d b) ∧
    ∀ path text seed r,
      ((matchPath path text seed ⟨.form, r⟩).isSome = true ↔
        (matchPath path text seed ⟨.percent, r⟩).isSome = true) ∧
      (∀ m m', matchPath path text seed ⟨.form, r⟩ = some m →
        matchPath path text seed ⟨.percent, r⟩ = some m' →
          m.rest = m'.rest ∧ ∀ name, name ∈ m.params ↔ name ∈ m'.params) ∧
      ('+' ∉ path.toList →
        matchPath path text seed ⟨.form, r⟩ = matchPath path text seed ⟨.percent, r⟩) := by
  refine ⟨fun token => ⟨?_, ?_, ?_⟩, fun path text seed r => ⟨?_, ?_, ?_⟩⟩
  · intro cause
    exact Escape.read_form_eq_error_iff
  · intro d cause
    exact Escape.decode_of_read_eq_error
  · intro text hread
    refine ⟨Escape.decode_form_of_read_eq_ok hread, ?_⟩
    rintro d a b plus hplus rfl
    exact Escape.decode_append_escaped_plus hplus (Escape.decodable_of_read_eq_ok hread)
  · rw [matchPath_eq, matchPath_eq, Option.isSome_map, Option.isSome_map, isSome_walk_iff,
      isSome_walk_iff]
    exact exists_congr fun k => stopsAt_congr rfl
  · intro m m' hm hm'
    obtain ⟨k, hk, rfl⟩ := Template.resolve_eq_some_iff.mp hm
    obtain ⟨j, hj, rfl⟩ := Template.resolve_eq_some_iff.mp hm'
    obtain rfl : k = j := hk.unique ((stopsAt_congr rfl).mpr hj)
    refine ⟨?_, fun name => mem_params_findingsAt_congr .form .percent⟩
    rw [Findings.rest_toMatch, Findings.rest_toMatch, rest_findingsAt_congr .form .percent]
  · intro hplus
    have htokens : ∀ t ∈ Path.tokens path, Escape.decode .form t = Escape.decode .percent t :=
      fun t ht => Escape.decode_form_of_plus_not_mem fun hc =>
        hplus (Path.mem_of_mem_tokens ht hc)
    have hleads : (⟨.form, r⟩ : Options).leads = (⟨.percent, r⟩ : Options).leads := rfl
    rw [matchPath_eq, matchPath_eq, walk_congr hleads htokens]

/-- A plus sign of either kind, one in a token that is kept, one in a captured rest, and none. -/
theorem decodings_differ_in_plus_search :
    (Escape.read .percent "a+b%2Bc" = .ok "a+b+c" ∧
      Escape.decode .form "a+b%2Bc" = Escape.decode .form "a+b" ++ "+" ++
        Escape.decode .form "c") ∧
    (Escape.read .form "a+%C3" = .error (.notUtf8 (.truncated 2)) ∧
      Escape.read .percent "a+%C3" = .error (.notUtf8 (.truncated 2)) ∧
      Escape.decode .form "a+%C3" = "a+%C3") ∧
    (∃ m m', matchPath "/find/a+b/x+y" "/find/:q/*" {} ⟨.form, .strict⟩ = some m ∧
      matchPath "/find/a+b/x+y" "/find/:q/*" {} ⟨.percent, .strict⟩ = some m' ∧
      m.rest = m'.rest ∧ (∀ name, name ∈ m.params ↔ name ∈ m'.params) ∧ m.get? "q" ≠ m'.get? "q") ∧
    '+' ∉ "/find/a%20b".toList ∧
    matchPath "/find/a%20b" "/find/:q" {} ⟨.form, .lenient⟩ =
      matchPath "/find/a%20b" "/find/:q" {} ⟨.percent, .lenient⟩ := by
  have hread : Escape.read .percent "a+b%2Bc" = .ok "a+b+c" := by decide +kernel
  have hkept : Escape.read .form "a+%C3" = .error (.notUtf8 (.truncated 2)) := by decide +kernel
  have hform : matchPath "/find/a+b/x+y" "/find/:q/*" {} ⟨.form, .strict⟩ =
      some { params := .ofList [("q", "a b")], rest := some "/x+y" } := by decide +kernel
  have hpercent : matchPath "/find/a+b/x+y" "/find/:q/*" {} ⟨.percent, .strict⟩ =
      some { params := .ofList [("q", "a+b")], rest := some "/x+y" } := by decide +kernel
  obtain ⟨htoken, hmatch⟩ := decodings_differ_in_plus
  obtain ⟨hrest, hnames⟩ := (hmatch _ _ _ _).2.1 _ _ hform hpercent
  refine ⟨⟨hread, ?_⟩, ⟨hkept, ?_, ?_⟩, ⟨_, _, hform, hpercent, hrest, hnames, by decide⟩,
    by decide, ?_⟩
  · exact ((htoken _).2.2 _ hread).2 .form "a+b" "c" "%2B" (Or.inl rfl) rfl
  · exact ((htoken _).1 _).mp hkept
  · exact (htoken _).2.1 .form _ hkept
  · exact (hmatch "/find/a%20b" "/find/:q" {} .lenient).2.2 (by decide)

end PathTemplate
