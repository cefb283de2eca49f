import PathTemplate.Proofs.Bindings
import PathTemplate.Proofs.Nesting

/-!
Normal forms as cache keys. A path that passes the three tests of `isNormal` is what its tokens
are written as (`ofTokens_tokens`), so `normalForm` writes the tokens out whether it tests them
or not (`normalForm_written`), and two paths have one normal form exactly when they have the same
tokens. Matching looks at the tokens only, and a bare wildcard hands all of them back: paths have
one normal form exactly when no template tells them apart (`normalForm_cache_key`).
-/

namespace PathTemplate

namespace Path

/-! ## Texts that are normal already -/

/-- The pieces with their slashes put back. -/
theorem flatMap_pieces (cs : List Char) : (pieces cs).flatMap ('/' :: ·) = '/' :: cs := by
  induction cs with
  | nil => rfl
  | cons c rest ih =>
    by_cases hc : c = '/'
    · simp [pieces, hc, ih]
    · cases h : pieces rest with
      | nil => exact absurd h (pieces_ne_nil rest)
      | cons p ps =>
        have hrest : p ++ ps.flatMap ('/' :: ·) = rest := by simpa [h] using ih
        simp [pieces, hc, h, hrest]

/-- All that tokens are made of comes from the path. -/
theorem mem_of_mem_tokens {path t : String} {c : Char} (ht : t ∈ tokens path)
    (hc : c ∈ t.toList) : c ∈ path.toList := by
  have hslash : c ≠ '/' := by
    rintro rfl
    exact (isToken_of_mem_tokens ht).2 hc
  simp only [tokens, List.mem_map, List.mem_filter] at ht
  obtain ⟨p, ⟨hp, -⟩, rfl⟩ := ht
  rw [String.toList_ofList] at hc
  have hmem : c ∈ '/' :: path.toList := by
    rw [← flatMap_pieces]
    exact List.mem_flatMap.mpr ⟨p, hp, List.mem_cons_of_mem _ hc⟩
  exact (List.mem_cons.mp hmem).resolve_left hslash

theorem hasDoubleSlash_cons_cons_eq_false_iff {c d : Char} {cs : List Char} :
    hasDoubleSlash (c :: d :: cs) = false ↔
      ¬ (c = '/' ∧ d = '/') ∧ hasDoubleSlash (d :: cs) = false := by
  by_cases h : c = '/' ∧ d = '/'
  · simp [h.1, h.2, hasDoubleSlash]
  · rw [hasDoubleSlash]
    · simp [h]
    · intro _ hc hcs
      exact h ⟨hc, (List.cons.inj hcs).1⟩

/-- Only two slashes side by side, or one at the end, leave a piece empty behind the first. -/
theorem ne_nil_of_mem_tail_pieces {cs : List Char} (hdouble : hasDoubleSlash cs = false)
    (hlast : cs.getLast? ≠ some '/') : ∀ p ∈ (pieces cs).tail, p ≠ [] := by
  induction cs with
  | nil => simp [pieces]
  | cons c rest ih =>
    cases rest with
    | nil =>
      have hc : c ≠ '/' := by simpa using hlast
      simp [pieces, hc]
    | cons d ds =>
      obtain ⟨hside, hdouble⟩ := hasDoubleSlash_cons_cons_eq_false_iff.mp hdouble
      have htail := ih hdouble (by simpa using hlast)
      by_cases hc : c = '/'
      · have hd : d ≠ '/' := fun hd => hside ⟨hc, hd⟩
        cases h : pieces ds with
        | nil => exact absurd h (pieces_ne_nil ds)
        | cons q qs => simpa [pieces, hc, hd, h] using htail
      · cases h : pieces (d :: ds) with
        | nil => exact absurd h (pieces_ne_nil _)
        | cons q qs =>
          rw [pieces, if_neg hc, h]
          simpa [h] using htail

/-- **Normal texts.** A normal path is what its tokens are written as. -/
theorem ofTokens_tokens {path : String} (h : isNormal path = true) :
    ofTokens (tokens path) = path := by
  simp only [isNormal, Bool.and_eq_true, Bool.or_eq_true, beq_iff_eq, bne_iff_ne,
    Bool.not_eq_true'] at h
  obtain ⟨⟨hhead, hdouble⟩, hlast⟩ := h
  rcases hlast with hroot | hlast
  · obtain rfl : path = "/" := String.toList_inj.mp hroot
    rfl
  · obtain ⟨cs, hcs⟩ := List.head?_eq_some_iff.mp hhead
    have hpieces : ∀ p ∈ pieces cs, p ≠ [] := by
      intro p hp
      apply ne_nil_of_mem_tail_pieces hdouble hlast
      rw [hcs]
      exact hp
    have htokens : tokens path = (pieces cs).map String.ofList := by
      have hkept : (pieces cs).filter (· ≠ []) = pieces cs :=
        List.filter_eq_self.mpr fun p hp => decide_eq_true (hpieces p hp)
      rw [tokens, hcs]
      show ((pieces cs).filter (· ≠ [])).map String.ofList = _
      rw [hkept]
    cases h : pieces cs with
    | nil => exact absurd h (pieces_ne_nil cs)
    | cons p ps =>
      apply String.toList_inj.mp
      rw [htokens, h, List.map_cons, toList_ofTokens_cons, ← List.map_cons, ← h, hcs,
        ← flatMap_pieces, written, List.flatMap_map]
      simp

theorem normalForm_eq_ofTokens (path : String) : normalForm path = ofTokens (tokens path) := by
  unfold normalForm
  split
  · rename_i h
    exact (ofTokens_tokens h).symm
  · rfl

theorem tokens_normalForm (path : String) : tokens (normalForm path) = tokens path := by
  rw [normalForm_eq_ofTokens, tokens_ofTokens fun _ => isToken_of_mem_tokens]

theorem isNormal_normalForm (path : String) : isNormal (normalForm path) = true := by
  rw [normalForm_eq_ofTokens]
  exact isNormal_ofTokens fun _ => isToken_of_mem_tokens

/-- The three tests say whether normalizing leaves a path as it is. -/
theorem normalForm_eq_self_iff {path : String} : normalForm path = path ↔ isNormal path = true := by
  constructor
  · intro h
    rw [← h]
    exact isNormal_normalForm path
  · intro h
    exact if_pos h

/-- **One normal form.** A path is normal exactly if it is what its tokens are written as, a slash
and the tokens joined by slashes; normal paths are those that stay as they are. Every path has this
text as its normal form, whether the tests let it through or not; it is normal itself and has the
same tokens. -/
theorem normalForm_written (path : String) :
    (isNormal path = true ↔ path = "/" ++ "/".intercalate (tokens path)) ∧
    (isNormal path = true ↔ normalForm path = path) ∧
    isNormal (normalForm path) = true ∧
    normalForm (normalForm path) = normalForm path ∧
    tokens (normalForm path) = tokens path ∧
    normalForm path = "/" ++ "/".intercalate (tokens path) := by
  have hwritten : normalForm path = "/" ++ "/".intercalate (tokens path) := by
    rw [normalForm_eq_ofTokens, ofTokens_eq]
  have hnormal : isNormal (normalForm path) = true := isNormal_normalForm path
  refine ⟨?_, normalForm_eq_self_iff.symm, hnormal, normalForm_eq_self_iff.mpr hnormal,
    tokens_normalForm path, hwritten⟩
  rw [← normalForm_eq_self_iff, ← hwritten, eq_comm]

/-- No slash in front, a run of slashes and one at the end. -/
example : normalForm "a//b/" = "/a/b" ∧ isNormal "/a//b" = false ∧ isNormal "/" = true := by decide

/-- The normal form tells the tokens, and nothing else. -/
theorem normalForm_eq_iff {p q : String} : normalForm p = normalForm q ↔ tokens p = tokens q := by
  constructor
  · intro h
    rw [← tokens_normalForm p, h, tokens_normalForm]
  · intro h
    rw [normalForm_eq_ofTokens, h, ← normalForm_eq_ofTokens]

end Path

/-! ## What matching sees of a path -/

theorem matchPath_congr_tokens {p q : String} (h : Path.tokens p = Path.tokens q) (text : String)
    (seed : Params) (o : Options) : matchPath p text seed o = matchPath q text seed o := by
  rw [matchPath_eq, matchPath_eq, h]

theorem Template.segments_normalForm (text : String) :
    (Template.ofString (Path.normalForm text)).segments = (Template.ofString text).segments := by
  rw [segments_ofString, segments_ofString, Path.tokens_normalForm]

/-- A bare wildcard hands back all tokens in their written form, which is the root if there are
none. -/
theorem rest_star_getD (path : String) (seed : Params) (o : Options) :
    ((matchPath path "*" seed o).bind Match.rest).getD "/" = Path.normalForm path := by
  have hstar : (Template.ofString "*").segments = [.wildcard ""] := by decide
  rw [matchPath_eq, hstar, walk_bare_wildcard fun _ => Path.isToken_of_mem_tokens,
    Path.normalForm_eq_ofTokens]
  exact leftRest_getD (Path.tokens path)

/-- **Cache keys.** Two paths have the same normal form exactly when every template matches them
alike, on every seed and under all options; and normal forms may stand for path and template. -/
theorem normalForm_cache_key (p q : String) :
    (Path.normalForm p = Path.normalForm q ↔
      ∀ text seed o, matchPath p text seed o = matchPath q text seed o) ∧
    ∀ text seed o,
      matchPath (Path.normalForm p) (Path.normalForm text) seed o = matchPath p text seed o := by
  refine ⟨⟨?_, ?_⟩, ?_⟩
  · intro h
    exact matchPath_congr_tokens (Path.normalForm_eq_iff.mp h)
  · intro h
    rw [← rest_star_getD p {} {}, h, rest_star_getD]
  · intro text seed o
    calc matchPath (Path.normalForm p) (Path.normalForm text) seed o
      _ = matchPath p (Path.normalForm text) seed o :=
        matchPath_congr_tokens (Path.tokens_normalForm p) _ seed o
      _ = matchPath p text seed o :=
        Template.matchPath_congr (Template.segments_normalForm text) p seed o

end PathTemplate
