import PathTemplate.Path

/-!
Tokens and written paths. Joining tokens with slashes and splitting the text again gives the same
tokens (`tokens_ofTokens`), a slash between two texts splits them apart (`tokens_append_slash`),
and the text that `ofTokens` writes is normal (`isNormal_ofTokens`).
-/

namespace PathTemplate.Path

/-- What stands between the slashes of a path. -/
def IsToken (t : String) : Prop := t ≠ "" ∧ '/' ∉ t.toList

instance (t : String) : Decidable (IsToken t) := inferInstanceAs (Decidable (_ ∧ _))

theorem isToken_of_mem_tokens {path t : String} (h : t ∈ tokens path) : IsToken t := by
  simp only [tokens, List.mem_map, List.mem_filter, decide_eq_true_eq] at h
  obtain ⟨p, ⟨hp, hne⟩, rfl⟩ := h
  refine ⟨?_, by simpa using slash_not_mem hp⟩
  intro he
  exact hne (by simpa using congrArg String.toList he)

theorem ne_empty_of_mem_tokens {path t : String} (h : t ∈ tokens path) : t ≠ "" :=
  (isToken_of_mem_tokens h).1

theorem isToken_of_mem_drop_tokens {path t : String} {k : Nat} (h : t ∈ (tokens path).drop k) :
    IsToken t :=
  isToken_of_mem_tokens (List.mem_of_mem_drop h)

/-! ## Splitting -/

theorem tokens_append_slash (a b : String) : tokens (a ++ "/" ++ b) = tokens a ++ tokens b := by
  have h : (a ++ "/" ++ b).toList = a.toList ++ '/' :: b.toList := by simp
  rw [tokens, h, pieces_append_slash, List.filter_append, List.map_append]
  rfl

theorem tokens_slash_append (b : String) : tokens ("/" ++ b) = tokens b := by
  simp [tokens, pieces]

theorem tokens_of_isToken {t : String} (h : IsToken t) : tokens t = [t] := by
  have hne : t.toList ≠ [] := by simpa using h.1
  simp [tokens, pieces_of_slash_not_mem h.2, hne]

theorem tokens_intercalate {ts : List String} (h : ∀ t ∈ ts, IsToken t) :
    tokens ("/".intercalate ts) = ts := by
  induction ts with
  | nil => rfl
  | cons t rest ih =>
    have ht : tokens t = [t] := tokens_of_isToken (h t (by simp))
    have hrest := ih (fun u hu => h u (by simp [hu]))
    cases rest with
    | nil => simpa using ht
    | cons u us =>
      rw [String.intercalate_cons_cons, tokens_append_slash, ht, hrest]
      rfl

/-- Joined tokens are told apart. -/
theorem intercalate_inj {ts us : List String} (ht : ∀ t ∈ ts, IsToken t) (hu : ∀ u ∈ us, IsToken u)
    (h : "/".intercalate ts = "/".intercalate us) : ts = us := by
  rw [← tokens_intercalate ht, h, tokens_intercalate hu]

/-! ## Written paths -/

/-- One slash in front, and one between each two tokens. -/
theorem ofTokens_eq (ts : List String) : ofTokens ts = "/" ++ "/".intercalate ts := by
  cases ts with
  | nil => rfl
  | cons t rest =>
    have h : ∀ (u : String) (us : List String),
        (u :: us).foldr (fun t rest => "/" ++ t ++ rest) "" = "/" ++ "/".intercalate (u :: us) := by
      intro u us
      induction us generalizing u with
      | nil => simp
      | cons v vs ih =>
        rw [List.foldr_cons, ih, String.intercalate_cons_cons]
        simp [String.append_assoc]
    exact h t rest

theorem tokens_ofTokens {ts : List String} (h : ∀ t ∈ ts, IsToken t) :
    tokens (ofTokens ts) = ts := by
  rw [ofTokens_eq, tokens_slash_append, tokens_intercalate h]

theorem ofTokens_inj {ts us : List String} (ht : ∀ t ∈ ts, IsToken t) (hu : ∀ u ∈ us, IsToken u)
    (h : ofTokens ts = ofTokens us) : ts = us := by
  rw [← tokens_ofTokens ht, h, tokens_ofTokens hu]

/-! ## Normal form -/

theorem hasDoubleSlash_append {cs : List Char} (h : '/' ∉ cs) (rest : List Char) :
    hasDoubleSlash (cs ++ rest) = hasDoubleSlash rest := by
  induction cs with
  | nil => rfl
  | cons c cs ih =>
    simp only [List.mem_cons, not_or] at h
    have hc : hasDoubleSlash (c :: (cs ++ rest)) = hasDoubleSlash (cs ++ rest) := by
      cases hr : cs ++ rest with
      | nil => simp [hasDoubleSlash]
      | cons d ds => simp [hasDoubleSlash, Ne.symm h.1]
    rw [List.cons_append, hc, ih h.2]

theorem hasDoubleSlash_slash_append {cs : List Char} (hne : cs ≠ []) (h : '/' ∉ cs)
    (rest : List Char) : hasDoubleSlash ('/' :: (cs ++ rest)) = hasDoubleSlash rest := by
  cases cs with
  | nil => exact absurd rfl hne
  | cons c cs =>
    simp only [List.mem_cons, not_or] at h
    have hc : hasDoubleSlash ('/' :: c :: (cs ++ rest)) = hasDoubleSlash (c :: (cs ++ rest)) := by
      simp [hasDoubleSlash, Ne.symm h.1]
    rw [List.cons_append, hc, ← List.cons_append]
    exact hasDoubleSlash_append (by simp [h.1, h.2]) rest

/-- The characters that `ofTokens` writes for a nonempty list. -/
def written (ts : List String) : List Char := ts.flatMap fun t => '/' :: t.toList

theorem toList_ofTokens_cons (t : String) (ts : List String) :
    (ofTokens (t :: ts)).toList = written (t :: ts) := by
  induction ts generalizing t with
  | nil => simp [ofTokens, written]
  | cons u us ih =>
    have h : ofTokens (t :: u :: us) = "/" ++ t ++ ofTokens (u :: us) := rfl
    rw [h]
    simp [ih, written]

theorem hasDoubleSlash_written {ts : List String} (h : ∀ t ∈ ts, IsToken t) :
    hasDoubleSlash (written ts) = false := by
  induction ts with
  | nil => rfl
  | cons t rest ih =>
    have ht := h t (by simp)
    have hw : written (t :: rest) = '/' :: (t.toList ++ written rest) := rfl
    rw [hw, hasDoubleSlash_slash_append (by simpa using ht.1) ht.2]
    exact ih fun u hu => h u (by simp [hu])

theorem getLast?_written_ne {ts : List String} (h : ∀ t ∈ ts, IsToken t) :
    (written ts).getLast? ≠ some '/' := by
  induction ts with
  | nil => simp [written]
  | cons t rest ih =>
    have ht := h t (by simp)
    have hrest := ih fun u hu => h u (by simp [hu])
    have hw : written (t :: rest) = ('/' :: t.toList) ++ written rest := rfl
    rw [hw, List.getLast?_append]
    cases hr : (written rest).getLast? with
    | some c => simpa [hr] using hrest
    | none =>
      have hne : t.toList ≠ [] := by simpa using ht.1
      rw [Option.none_or, List.getLast?_cons_of_ne_nil hne]
      exact fun hl => ht.2 (List.mem_of_getLast? hl)

theorem isNormal_ofTokens {ts : List String} (h : ∀ t ∈ ts, IsToken t) :
    isNormal (ofTokens ts) = true := by
  cases ts with
  | nil => decide
  | cons t rest =>
    have hhead : (written (t :: rest)).head? = some '/' := rfl
    have hlast := getLast?_written_ne h
    simp only [isNormal, toList_ofTokens_cons, hhead, hasDoubleSlash_written h]
    simp [hlast]

end PathTemplate.Path
