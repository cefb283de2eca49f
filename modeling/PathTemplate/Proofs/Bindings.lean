import PathTemplate.Match.Walk

/-!
What a match holds under a name: the value bound last, or else the seed's (`get?_toMatch`). The
seed has no other part in a match: it decides nothing, and what the template does not bind stays
as it is (`matchPath_seed`). A token decodes to the empty text only if it is empty itself
(`decode_ne_empty`), and so does a list of tokens.
-/

namespace PathTemplate

/-! ## Looking names up -/

/-- The value bound last under a name. -/
def Findings.last? (f : Findings) (name : String) : Option String :=
  f.bindings.reverse.lookup name

theorem getElem?_foldl_insert (bs : List (String × String)) (seed : Params) (name : String) :
    (bs.foldl (fun ps b => ps.insert b.1 b.2) seed)[name]? =
      (bs.reverse.lookup name).or seed[name]? := by
  induction bs generalizing seed with
  | nil => simp
  | cons b bs ih =>
    rw [List.foldl_cons, ih, List.reverse_cons, List.lookup_append, Option.or_assoc,
      Std.ExtTreeMap.getElem?_insert]
    obtain ⟨key, value⟩ := b
    by_cases hb : key = name
    · simp [hb]
    · simp [hb, Ne.symm hb]

/-- **Later bindings win.** -/
theorem Findings.get?_toMatch (f : Findings) (seed : Params) (name : String) :
    (f.toMatch seed).get? name = (f.last? name).or seed[name]? :=
  getElem?_foldl_insert f.bindings seed name

theorem lookup_reverse_eq_none {bs : List (String × String)} {name : String}
    (h : name ∉ bs.map Prod.fst) : bs.reverse.lookup name = none := by
  rw [List.lookup_eq_none_iff]
  intro b hb
  rw [bne_iff_ne]
  rintro rfl
  exact h (List.mem_map_of_mem (List.mem_reverse.mp hb))

@[simp]
theorem Findings.rest_toMatch (f : Findings) (seed : Params) : (f.toMatch seed).rest = f.rest :=
  rfl

theorem mem_of_lookup_reverse {bs : List (String × String)} {name v : String}
    (h : bs.reverse.lookup name = some v) : (name, v) ∈ bs := by
  obtain ⟨l₁, l₂, hs, -⟩ := List.lookup_eq_some_iff.mp h
  exact List.mem_reverse.mp (by simp [hs])

theorem exists_lookup_reverse {bs : List (String × String)} {name : String}
    (h : name ∈ bs.map Prod.fst) :
    ∃ v, bs.reverse.lookup name = some v ∧ (name, v) ∈ bs := by
  cases hl : bs.reverse.lookup name with
  | none =>
    obtain ⟨b, hb, rfl⟩ := List.mem_map.mp h
    rw [List.lookup_eq_none_iff] at hl
    simpa using hl b (List.mem_reverse.mpr hb)
  | some v => exact ⟨v, rfl, mem_of_lookup_reverse hl⟩

/-! ## Seeds -/

/-- On an empty seed, a match holds the names that the walk has bound. -/
theorem Findings.mem_params_iff_isSome_last? {f : Findings} {name : String} :
    name ∈ (f.toMatch {}).params ↔ (f.last? name).isSome := by
  have hget : (f.toMatch {}).params[name]? = (f.last? name).or (∅ : Params)[name]? :=
    f.get?_toMatch {} name
  rw [Std.ExtTreeMap.mem_iff_isSome_getElem?, hget]
  simp

section Seed

variable (f : Findings) (seed : Params) {name : String}

theorem Findings.get?_toMatch_of_mem (h : name ∈ (f.toMatch {}).params) :
    (f.toMatch seed).get? name = (f.toMatch {}).get? name := by
  obtain ⟨v, hv⟩ := Option.isSome_iff_exists.mp (mem_params_iff_isSome_last?.mp h)
  rw [get?_toMatch, get?_toMatch, hv, Option.some_or, Option.some_or]

theorem Findings.get?_toMatch_of_not_mem (h : name ∉ (f.toMatch {}).params) :
    (f.toMatch seed).get? name = seed[name]? := by
  have hnone : f.last? name = none := by
    rw [mem_params_iff_isSome_last?] at h
    simpa using h
  rw [get?_toMatch, hnone, Option.none_or]

/-- A match holds the names of the seed and those that are bound. -/
theorem Findings.mem_params_seeded_iff :
    name ∈ (f.toMatch seed).params ↔ name ∈ (f.toMatch {}).params ∨ name ∈ seed := by
  have hget : (f.toMatch seed).params[name]? = (f.last? name).or seed[name]? :=
    f.get?_toMatch seed name
  rw [Std.ExtTreeMap.mem_iff_isSome_getElem?, hget, Option.isSome_or, Bool.or_eq_true,
    Std.ExtTreeMap.mem_iff_isSome_getElem? (t := seed), mem_params_iff_isSome_last?]

end Seed

/-- **The seed is a frame.** A path matches on a seed exactly if it does on none, with the same
rest. Names that the match without a seed holds keep their values, and all others have the value
that the seed gives them. -/
theorem matchPath_seed (path text : String) (seed : Params) (o : Options) :
    ((matchPath path text seed o).isSome ↔ (matchPath path text {} o).isSome) ∧
    ∀ m m₀, matchPath path text seed o = some m → matchPath path text {} o = some m₀ →
      m.rest = m₀.rest ∧
      (∀ name ∈ m₀.params, m.get? name = m₀.get? name) ∧
      ∀ name ∉ m₀.params, m.get? name = seed[name]? := by
  simp only [matchPath, Template.resolve, matchTokens]
  cases walk o (Template.ofString text).segments (Path.tokens path) with
  | none => simp
  | some f =>
    refine ⟨by simp, ?_⟩
    rintro m m₀ hm hm₀
    obtain rfl := Option.some.inj hm
    obtain rfl := Option.some.inj hm₀
    refine ⟨rfl, ?_, ?_⟩
    · intro name hname
      exact f.get?_toMatch_of_mem seed hname
    · intro name hname
      exact f.get?_toMatch_of_not_mem seed hname

/-- An absent parameter overwrites the seed with the empty text; a parameter that the walk does not
get to leaves it alone. -/
theorem matchPath_seed_shop :
    ∃ m m₀ : Match,
      matchPath "/cups" "/:kind/:item?/:item*/:size"
        (Std.ExtTreeMap.ofList [("kind", "mugs"), ("item", "7"), ("size", "xl")]) {} = some m ∧
      matchPath "/cups" "/:kind/:item?/:item*/:size" {} {} = some m₀ ∧
      m.rest = m₀.rest ∧
      (m₀.get? "item" = some "" ∧ m.get? "item" = m₀.get? "item") ∧
      ("size" ∉ m₀.params ∧ m.get? "size" = some "xl") := by
  have hempty : matchPath "/cups" "/:kind/:item?/:item*/:size" {} {} =
      some { params := .ofList [("kind", "cups"), ("item", "")] } := by decide +kernel
  obtain ⟨hsome, hsame⟩ := matchPath_seed "/cups" "/:kind/:item?/:item*/:size"
    (Std.ExtTreeMap.ofList [("kind", "mugs"), ("item", "7"), ("size", "xl")]) {}
  obtain ⟨m, hm⟩ := Option.isSome_iff_exists.mp (hsome.mpr (by rw [hempty]; rfl))
  obtain ⟨hrest, hbound, hkept⟩ := hsame m _ hm hempty
  exact ⟨m, _, hm, hempty, hrest, ⟨by decide, hbound "item" (by decide)⟩,
    by decide, (hkept "size" (by decide)).trans (by decide)⟩

/-! ## Values -/

namespace Text.Utf8

theorem map_cons_ne_ok_nil (c : Char) (r : Except Fault (List Char)) :
    r.map (c :: ·) ≠ .ok [] := by
  cases r <;> simp [Except.map]

theorem readFrom_pending_ne (pos : Nat) (state : Nat × Pending) (octets : List UInt8) :
    readFrom pos (some state) octets ≠ .ok [] := by
  induction octets generalizing pos state with
  | nil => simp [readFrom]
  | cons b rest ih =>
    simp only [readFrom]
    split
    · split
      · exact map_cons_ne_ok_nil _ _
      · exact ih _ _
    · simp

theorem read_ne_ok_nil {octets : List UInt8} (h : octets ≠ []) : read octets ≠ .ok [] := by
  cases octets with
  | nil => exact absurd rfl h
  | cons b rest =>
    simp only [read, readFrom]
    split
    · exact map_cons_ne_ok_nil _ _
    · split
      · simp
      · exact readFrom_pending_ne _ _ _

end Text.Utf8

namespace Escape

theorem octets?_ne_some_nil (d : Decoding) {cs : List Char} (h : cs ≠ []) :
    octets? d cs ≠ some [] := by
  intro ho
  unfold octets? at ho
  split at ho
  · exact h rfl
  · split at ho <;> simp at ho
  · simp at ho
  · rename_i c rest _ _
    obtain ⟨os, -, hos⟩ := Option.map_eq_some_iff.mp ho
    have hlen := congrArg List.length hos
    have hsize := Char.utf8Size_pos (plain d c)
    simp at hlen
    omega

theorem decode_ne_empty (d : Decoding) {token : String} (h : token ≠ "") :
    decode d token ≠ "" := by
  have hcs : token.toList ≠ [] := by simpa using h
  unfold decode read
  cases ho : octets? d token.toList with
  | none => exact h
  | some octets =>
    have hne : octets ≠ [] := by
      rintro rfl
      exact octets?_ne_some_nil d hcs ho
    cases hr : Text.Utf8.read octets with
    | error cause => simpa [hr] using h
    | ok cs =>
      intro he
      have hnil : cs = [] := by simpa [hr] using he
      exact Text.Utf8.read_ne_ok_nil hne (hnil ▸ hr)

theorem decode_empty (d : Decoding) : decode d "" = "" := by
  cases d <;> decide

end Escape

theorem intercalate_ne_empty {sep t : String} {ts : List String} (h : t ≠ "") :
    sep.intercalate (t :: ts) ≠ "" := by
  cases ts with
  | nil => simpa using h
  | cons u us =>
    intro he
    have hl := congrArg String.toList he
    simp [h] at hl

end PathTemplate
