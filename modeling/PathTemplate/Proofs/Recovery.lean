import PathTemplate.Proofs.BoundNames
import PathTemplate.Proofs.Decoding
import PathTemplate.Proofs.LeadRules
import PathTemplate.Proofs.NormalForm

/-!
What a match tells about its path. If the template names each parameter once and no token has an
escape, the match alone gives the path back, up to its slashes (`normalForm_eq_of_same_match`).
Two paths with the same match stop at the same position: only a wildcard lets one walk end where
another goes on, and under the strict rule, or without a second wildcard, no other wildcard can
capture the same rest (`StopsAt.le_of_same_rest`). Up to there each token is the text of its
segment or the value of its parameter, and what is left was bound or captured as a whole.
-/

namespace PathTemplate

/-! ## Tokens without escapes -/

section Plain

variable {tokens : List String} (h : ∀ t ∈ tokens, '%' ∉ t.toList)

include h

theorem decode_tokenAt (i : Nat) :
    Escape.decode .percent (tokenAt tokens i) = tokenAt tokens i := by
  unfold tokenAt
  rw [List.getD_eq_getElem?_getD]
  cases hi : tokens[i]? with
  | none => exact Escape.decode_empty .percent
  | some t => exact Escape.decode_percent_of_not_mem (h t (List.mem_of_getElem? hi))

/-- Values are the tokens themselves. -/
theorem valueAt_percent (k i : Nat) :
    valueAt .percent tokens k i =
      if i < k then tokenAt tokens i else "/".intercalate (tokens.drop i) := by
  have hdrop : (tokens.drop i).map (Escape.decode .percent) = (tokens.drop i).map id :=
    List.map_congr_left fun t ht =>
      Escape.decode_percent_of_not_mem (h t (List.mem_of_mem_drop ht))
  rw [valueAt, decode_tokenAt h, hdrop, List.map_id]

end Plain

/-- Token lists are told apart by what stands before some position, and what is left there. -/
theorem eq_of_tokenAt_eq_of_drop_eq {ps qs : List String} {k : Nat} (hps : ∀ t ∈ ps, t ≠ "")
    (hqs : ∀ t ∈ qs, t ≠ "") (hfront : ∀ i < k, tokenAt ps i = tokenAt qs i)
    (hleft : ps.drop k = qs.drop k) : ps = qs := by
  induction k generalizing ps qs with
  | zero => exact hleft
  | succ k ih =>
    have hhead : nextToken ps = nextToken qs := by
      rw [← tokenAt_zero, ← tokenAt_zero]
      exact hfront 0 (by omega)
    cases ps with
    | nil =>
      cases qs with
      | nil => rfl
      | cons u us => exact absurd hhead.symm (hqs u (by simp))
    | cons t ts =>
      cases qs with
      | nil => exact absurd hhead (hps t (by simp))
      | cons u us =>
        obtain rfl : t = u := hhead
        have htail : ts = us := by
          apply ih
          · exact fun t ht => hps t (List.mem_cons_of_mem _ ht)
          · exact fun t ht => hqs t (List.mem_cons_of_mem _ ht)
          · exact fun i hi => hfront (i + 1) (by omega)
          · exact hleft
        rw [htail]

/-! ## Where the walks stop -/

theorem position_unique_of_countP {p : Segment → Bool} {segments : List Segment}
    (h : segments.countP p ≤ 1) {i j : Nat} {s u : Segment} (hi : segments[i]? = some s)
    (hs : p s = true) (hj : segments[j]? = some u) (hu : p u = true) : ¬ i < j := by
  intro hlt
  have hfront : 1 ≤ (segments.take j).countP p :=
    List.one_le_countP_iff.mpr
      ⟨s, List.mem_of_getElem? ((List.getElem?_take_of_lt hlt).trans hi), hs⟩
  have hback : 1 ≤ (segments.drop j).countP p := by
    refine List.one_le_countP_iff.mpr ⟨u, List.mem_of_getElem? (i := 0) ?_, hu⟩
    rw [List.getElem?_drop]
    exact hj
  have hsum : (segments.take j).countP p + (segments.drop j).countP p = segments.countP p := by
    rw [← List.countP_append, List.take_append_drop]
  omega

section Stops

variable {o : Options} {segments : List Segment} {ps qs : List String} {j k : Nat}

/-- Walks that leave the same rest stop at the same position. -/
theorem StopsAt.le_of_same_rest
    (hwild : o.leads = .strict ∨ segments.countP Segment.isWildcard ≤ 1)
    (hqs : ∀ t ∈ qs, t ≠ "") (hj : StopsAt o segments ps j) (hk : StopsAt o segments qs k)
    (hrest : (findingsAt o.decoding segments ps j).rest =
      (findingsAt o.decoding segments qs k).rest) : k ≤ j := by
  refine Nat.le_of_not_lt fun hlt => ?_
  obtain ⟨s, hs, hp⟩ := hk.1 j hlt
  obtain ⟨u, hu, hc⟩ | ⟨rfl, -⟩ := hj.2
  · cases hs.symm.trans hu
    obtain ⟨lead, rfl⟩ :=
      Segment.exists_wildcard_of_captures hc (Segment.takesRest_eq_false_of_passes hp)
    -- One path leaves its rest to this wildcard, the other to one behind it.
    have hsome : (findingsAt o.decoding segments ps j).rest = some (Path.ofTokens (ps.drop j)) :=
      rest_findingsAt_eq_some_iff.mpr ⟨⟨lead, hs⟩, rfl⟩
    rw [hrest, rest_findingsAt_eq_some_iff] at hsome
    obtain ⟨⟨lead', hs'⟩, -⟩ := hsome
    rcases hwild with hstrict | hone
    · have hlead : lead = "" := by
        rcases hc.2.2 with hlenient | hlead
        · rw [hstrict] at hlenient
          cases hlenient
        · exact hlead
      have hend : qs.length ≤ j := (tokenAt_eq_empty_iff hqs).mp (hp.symm.trans hlead)
      obtain ⟨v, hv, hc'⟩ | ⟨rfl, -⟩ := hk.2
      · cases hs'.symm.trans hv
        exact hc'.1 ((tokenAt_eq_empty_iff hqs).mpr (by omega))
      · simp at hs'
    · exact position_unique_of_countP hone hs rfl hs' rfl hlt
  · simp at hs

end Stops

/-! ## What the match tells of the tokens -/

/-- Without a name, a segment lets through one token only. -/
theorem Segment.token_unique_of_passes {s : Segment} {t u : String} (hname : s.name? = none)
    (ht : s.Passes t) (hu : s.Passes u) : t = u := by
  cases s with
  | literal text => exact ht.symm.trans hu
  | wildcard lead => exact ht.symm.trans hu
  | param name a => simp [name?] at hname

section Same

variable {o : Options} {segments : List Segment} {p q : String} {k : Nat}

theorem valueAt_eq_of_same_match (hdistinct : (names segments).Nodup)
    (hsame : (findingsAt o.decoding segments (Path.tokens p) k).toMatch {} =
      (findingsAt o.decoding segments (Path.tokens q) k).toMatch {})
    {i : Nat} {name : String} {a : Arity} (hs : segments[i]? = some (.param name a))
    (hi : i ≤ k) :
    valueAt o.decoding (Path.tokens p) k i = valueAt o.decoding (Path.tokens q) k i := by
  apply Option.some.inj
  rw [← get?_findingsAt hdistinct hs hi, hsame, get?_findingsAt hdistinct hs hi]

variable (ho : o.decoding = .percent) (hdistinct : (names segments).Nodup)
  (hp : ∀ t ∈ Path.tokens p, '%' ∉ t.toList) (hq : ∀ t ∈ Path.tokens q, '%' ∉ t.toList)
  (hpk : StopsAt o segments (Path.tokens p) k) (hqk : StopsAt o segments (Path.tokens q) k)
  (hsame : (findingsAt o.decoding segments (Path.tokens p) k).toMatch {} =
    (findingsAt o.decoding segments (Path.tokens q) k).toMatch {})

include ho hdistinct hp hq hpk hqk hsame

theorem tokenAt_eq_of_same_match {i : Nat} (hi : i < k) :
    tokenAt (Path.tokens p) i = tokenAt (Path.tokens q) i := by
  obtain ⟨s, hs, hpasses⟩ := hpk.1 i hi
  obtain ⟨u, hu, hqpasses⟩ := hqk.1 i hi
  cases hs.symm.trans hu
  cases s with
  | literal text => exact Segment.token_unique_of_passes rfl hpasses hqpasses
  | wildcard lead => exact Segment.token_unique_of_passes rfl hpasses hqpasses
  | param name a =>
    have hvalue := valueAt_eq_of_same_match hdistinct hsame hs (Nat.le_of_lt hi)
    rwa [ho, valueAt_percent hp, valueAt_percent hq, if_pos hi, if_pos hi] at hvalue

/-- What is left was bound or captured as a whole, or is nothing. -/
theorem drop_eq_of_same_match : (Path.tokens p).drop k = (Path.tokens q).drop k := by
  have hpleft : ∀ t ∈ (Path.tokens p).drop k, Path.IsToken t :=
    fun _ => Path.isToken_of_mem_drop_tokens
  have hqleft : ∀ t ∈ (Path.tokens q).drop k, Path.IsToken t :=
    fun _ => Path.isToken_of_mem_drop_tokens
  rcases hpk.2 with ⟨s, hs, hc⟩ | ⟨hend, hplen⟩
  · cases s with
    | literal text => exact absurd hc id
    | wildcard lead =>
      have hrest : ∀ path : String,
          (findingsAt o.decoding segments (Path.tokens path) k).rest =
            some (Path.ofTokens ((Path.tokens path).drop k)) :=
        fun path => rest_findingsAt_eq_some_iff.mpr ⟨⟨lead, hs⟩, rfl⟩
      apply Path.ofTokens_inj hpleft hqleft
      apply Option.some.inj
      rw [← hrest p, ← hrest q]
      exact congrArg Match.rest hsame
    | param name a =>
      have hvalue := valueAt_eq_of_same_match hdistinct hsame hs (Nat.le_refl k)
      rw [ho, valueAt_percent hp, valueAt_percent hq, if_neg (Nat.lt_irrefl k),
        if_neg (Nat.lt_irrefl k)] at hvalue
      exact Path.intercalate_inj hpleft hqleft hvalue
  · have hqlen : (Path.tokens q).length ≤ segments.length := by
      rcases hqk.2 with ⟨u, hu, -⟩ | ⟨-, hqlen⟩
      · have hlt : k < segments.length := (List.getElem?_eq_some_iff.mp hu).1
        omega
      · exact hqlen
    rw [List.drop_eq_nil_of_le (by omega), List.drop_eq_nil_of_le (by omega)]

end Same

/-- **The path recovered.** If names are distinct and no token has an escape, the match gives the
path back up to its slashes, under the strict rule or with one wildcard at most. -/
theorem normalForm_eq_of_same_match (t : Template) (p q : String) (m : Match)
    (hdistinct : (names t.segments).Nodup) (hpercent : t.options.decoding = .percent)
    (hwild : t.options.leads = .strict ∨ t.segments.countP Segment.isWildcard ≤ 1)
    (hp : ∀ token ∈ Path.tokens p, '%' ∉ token.toList)
    (hq : ∀ token ∈ Path.tokens q, '%' ∉ token.toList)
    (hpm : t.resolve p {} = some m) (hqm : t.resolve q {} = some m) :
    Path.normalForm p = Path.normalForm q := by
  obtain ⟨j, hj, rfl⟩ := Template.resolve_eq_some_iff.mp hpm
  obtain ⟨k, hk, hsame⟩ := Template.resolve_eq_some_iff.mp hqm
  have hrest : (findingsAt t.options.decoding t.segments (Path.tokens p) j).rest =
      (findingsAt t.options.decoding t.segments (Path.tokens q) k).rest :=
    congrArg Match.rest hsame
  have hjk : j = k := Nat.le_antisymm
    (hk.le_of_same_rest hwild (fun _ => Path.ne_empty_of_mem_tokens) hj hrest.symm)
    (hj.le_of_same_rest hwild (fun _ => Path.ne_empty_of_mem_tokens) hk hrest)
  subst hjk
  rw [Path.normalForm_eq_iff]
  apply eq_of_tokenAt_eq_of_drop_eq (fun _ => Path.ne_empty_of_mem_tokens)
    (fun _ => Path.ne_empty_of_mem_tokens)
  · intro i hi
    exact tokenAt_eq_of_same_match hpercent hdistinct hp hq hj hk hsame hi
  · exact drop_eq_of_same_match hpercent hdistinct hp hq hj hk hsame

/-- A wildcard that equals its token, an optional parameter and a captured rest. -/
theorem normalForm_eq_of_same_match_docs :
    (∃ m,
      ((Template.ofString "/docs*/:page?/*").withLeads .strict).resolve "/docs/a+b/x/y" {} =
        some m ∧
      ((Template.ofString "/docs*/:page?/*").withLeads .strict).resolve "docs//a+b/x//y/" {} =
        some m) ∧
    Path.normalForm "/docs/a+b/x/y" = Path.normalForm "docs//a+b/x//y/" := by
  have hp : ((Template.ofString "/docs*/:page?/*").withLeads .strict).resolve
      "/docs/a+b/x/y" {} =
        some { params := .ofList [("page", "a+b")], rest := some "/x/y" } := by decide +kernel
  have hq : ((Template.ofString "/docs*/:page?/*").withLeads .strict).resolve
      "docs//a+b/x//y/" {} =
        some { params := .ofList [("page", "a+b")], rest := some "/x/y" } := by decide +kernel
  exact ⟨⟨_, hp, hq⟩, normalForm_eq_of_same_match _ _ _ _ (by decide) rfl (Or.inl rfl)
    (by decide) (by decide) hp hq⟩

/-- With a second wildcard under the lenient rule, the rest does not tell where it starts. -/
example : matchPath "/x/y" "/a*/*" {} {} = matchPath "/a/x/y" "/a*/*" {} {} := by decide

end PathTemplate
