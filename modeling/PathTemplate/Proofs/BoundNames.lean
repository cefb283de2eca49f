import PathTemplate.Proofs.Bindings
import PathTemplate.Proofs.Phases

/-!
Which names a match holds. A walk that ends at position `k` binds the parameters up to `k`
(`mem_bindings_findingsAt`), and a template lists the parameters before which no other takes the
rest (`mem_parametersOf_iff`). `bound_names` compares the two: without a captured rest a match
holds all listed names, with one those in front of the wildcard.
-/

namespace PathTemplate

/-! ## Values by position -/

theorem Escape.decode_eq_empty_iff {d : Decoding} {token : String} :
    decode d token = "" ↔ token = "" := by
  constructor
  · intro h
    exact Decidable.not_not.mp fun hne => decode_ne_empty d hne h
  · intro h
    rw [h, decode_empty]

theorem intercalate_decode_eq_empty_iff {d : Decoding} {left : List String}
    (ht : ∀ t ∈ left, t ≠ "") :
    "/".intercalate (left.map (Escape.decode d)) = "" ↔ left = [] := by
  cases left with
  | nil => simp
  | cons t ts =>
    have hne : Escape.decode d t ≠ "" := Escape.decode_ne_empty d (ht t (by simp))
    have hjoin : "/".intercalate (Escape.decode d t :: ts.map (Escape.decode d)) ≠ "" :=
      intercalate_ne_empty hne
    simpa using hjoin

/-- What a walk that ends at position `k` binds to a parameter at position `i`: the token there,
or at `k` all that is left. -/
def valueAt (d : Decoding) (tokens : List String) (k i : Nat) : String :=
  if i < k then Escape.decode d (tokenAt tokens i)
  else "/".intercalate ((tokens.drop i).map (Escape.decode d))

theorem valueAt_eq_empty_iff {d : Decoding} {tokens : List String} (ht : ∀ t ∈ tokens, t ≠ "")
    {k i : Nat} : valueAt d tokens k i = "" ↔ tokens.length ≤ i := by
  unfold valueAt
  split
  · rw [Escape.decode_eq_empty_iff, tokenAt_eq_empty_iff ht]
  · have hdrop : ∀ t ∈ tokens.drop i, t ≠ "" := fun t hm => ht t (List.mem_of_mem_drop hm)
    rw [intercalate_decode_eq_empty_iff hdrop, List.drop_eq_nil_iff]

/-! ## Names by position -/

/-- The name of a parameter. -/
def Segment.name? : Segment → Option String
  | param name _ => some name
  | _ => none

theorem Segment.binding?_eq_map (d : Decoding) (token : String) :
    binding? d token = fun s => s.name?.map fun n => (n, Escape.decode d token) := by
  funext s
  cases s <;> rfl

theorem Segment.restBinding?_eq_map (d : Decoding) (left : List String) :
    restBinding? d left =
      fun s => s.name?.map fun n => (n, "/".intercalate (left.map (Escape.decode d))) := by
  funext s
  cases s <;> rfl

section Names

variable {segments : List Segment} {name : String}

theorem mem_names_iff : name ∈ names segments ↔ ∃ a, Segment.param name a ∈ segments := by
  induction segments with
  | nil => simp [names]
  | cons s segments ih =>
    rw [names_cons s segments .percent "", List.mem_append, ih]
    cases s <;> simp [Segment.binding?, eq_comm, exists_or]

theorem mem_names_take_iff {k : Nat} :
    name ∈ names (segments.take k) ↔ ∃ i < k, ∃ a, segments[i]? = some (.param name a) := by
  rw [mem_names_iff]
  constructor
  · rintro ⟨a, ha⟩
    obtain ⟨i, hi⟩ := List.mem_iff_getElem?.mp ha
    rw [List.getElem?_take, Option.ite_none_right_eq_some] at hi
    exact ⟨i, hi.1, a, hi.2⟩
  · rintro ⟨i, hik, a, hi⟩
    exact ⟨a, List.mem_of_getElem? ((List.getElem?_take_of_lt hik).trans hi)⟩

/-- Where names are distinct, a name tells the position. -/
theorem position_unique (hdistinct : (names segments).Nodup) {i j : Nat} {a b : Arity}
    (hi : segments[i]? = some (.param name a)) (hj : segments[j]? = some (.param name b)) :
    i = j := by
  obtain ⟨hilt, hi⟩ := List.getElem?_eq_some_iff.mp hi
  obtain ⟨hjlt, hj⟩ := List.getElem?_eq_some_iff.mp hj
  unfold names List.Nodup at hdistinct
  rw [List.pairwise_filterMap, List.pairwise_iff_getElem] at hdistinct
  have hij : ¬ i < j := fun hlt =>
    hdistinct i j hilt hjlt hlt name (by rw [hi]) name (by rw [hj]) rfl
  have hji : ¬ j < i := fun hlt =>
    hdistinct j i hjlt hilt hlt name (by rw [hj]) name (by rw [hi]) rfl
  omega

end Names

/-! ## What a walk binds -/

section Bound

variable {d : Decoding} {segments : List Segment} {tokens : List String} {k : Nat}
  {name v : String}

/-- A segment that binds something binds its own name. -/
theorem bind_map_name?_eq_some_iff {i : Nat} {value : String} :
    (segments[i]?.bind fun s => s.name?.map fun n => (n, value)) = some (name, v) ↔
      ∃ a, segments[i]? = some (.param name a) ∧ v = value := by
  rw [Option.bind_eq_some_iff]
  constructor
  · rintro ⟨s, hs, hb⟩
    cases s with
    | literal text | wildcard lead => simp [Segment.name?] at hb
    | param n a =>
      cases Option.some.inj hb
      exact ⟨a, hs, rfl⟩
  · rintro ⟨a, hs, rfl⟩
    exact ⟨_, hs, rfl⟩

/-- **Bindings by position.** -/
theorem mem_bindings_findingsAt :
    (name, v) ∈ (findingsAt d segments tokens k).bindings ↔
      ∃ i ≤ k, ∃ a, segments[i]? = some (.param name a) ∧ v = valueAt d tokens k i := by
  simp only [findingsAt, bindingAt, Segment.binding?_eq_map, Segment.restBinding?_eq_map,
    List.mem_append, List.mem_filterMap, List.mem_range, Option.mem_toList,
    bind_map_name?_eq_some_iff]
  constructor
  · rintro (⟨i, hi, a, hs, rfl⟩ | ⟨a, hs, rfl⟩)
    · exact ⟨i, Nat.le_of_lt hi, a, hs, (if_pos hi).symm⟩
    · exact ⟨k, Nat.le_refl k, a, hs, (if_neg (Nat.lt_irrefl k)).symm⟩
  · rintro ⟨i, hi, a, hs, rfl⟩
    rcases Nat.lt_or_eq_of_le hi with hlt | rfl
    · exact Or.inl ⟨i, hlt, a, hs, if_pos hlt⟩
    · exact Or.inr ⟨a, hs, if_neg (Nat.lt_irrefl i)⟩

theorem mem_bindings_of_get? {f : Findings} (h : (f.toMatch {}).get? name = some v) :
    (name, v) ∈ f.bindings := by
  rw [Findings.get?_toMatch] at h
  exact mem_of_lookup_reverse (by simpa [Findings.last?] using h)

theorem mem_params_toMatch_iff {f : Findings} :
    name ∈ (f.toMatch {}).params ↔ ∃ v, (name, v) ∈ f.bindings := by
  rw [Findings.mem_params_iff_isSome_last?, Option.isSome_iff_exists]
  constructor
  · rintro ⟨v, hv⟩
    exact ⟨v, mem_of_lookup_reverse hv⟩
  · rintro ⟨v, hv⟩
    obtain ⟨w, hw, -⟩ := exists_lookup_reverse (List.mem_map_of_mem hv)
    exact ⟨w, hw⟩

/-- **Names by position.** On an empty seed a match holds the parameters up to where it ends. -/
theorem mem_params_findingsAt_iff :
    name ∈ ((findingsAt d segments tokens k).toMatch {}).params ↔
      ∃ i ≤ k, ∃ a, segments[i]? = some (.param name a) := by
  rw [mem_params_toMatch_iff]
  constructor
  · rintro ⟨v, hv⟩
    obtain ⟨i, hi, a, hs, -⟩ := mem_bindings_findingsAt.mp hv
    exact ⟨i, hi, a, hs⟩
  · rintro ⟨i, hi, a, hs⟩
    exact ⟨_, mem_bindings_findingsAt.mpr ⟨i, hi, a, hs, rfl⟩⟩

/-- **Values by position.** Where names are distinct, a match holds the value that each parameter
has at its position. -/
theorem get?_findingsAt {a : Arity} {i : Nat} (hdistinct : (names segments).Nodup)
    (hs : segments[i]? = some (.param name a)) (hi : i ≤ k) :
    ((findingsAt d segments tokens k).toMatch {}).get? name = some (valueAt d tokens k i) := by
  have hmem : name ∈ ((findingsAt d segments tokens k).toMatch {}).params :=
    mem_params_findingsAt_iff.mpr ⟨i, hi, a, hs⟩
  rw [Std.ExtTreeMap.mem_iff_isSome_getElem?, Option.isSome_iff_exists] at hmem
  obtain ⟨v, hv⟩ := hmem
  obtain ⟨j, -, b, hs', hvalue⟩ := mem_bindings_findingsAt.mp (mem_bindings_of_get? hv)
  obtain rfl : i = j := position_unique hdistinct hs hs'
  exact hv.trans (congrArg some hvalue)

end Bound

/-! ## What a template lists -/

/-- The parameter at position `i`, unless one before it takes the rest. -/
def ListedAt (segments : List Segment) (name : String) (p : Presence) (i : Nat) : Prop :=
  ∃ a, segments[i]? = some (.param name a) ∧ a.presence = p ∧
    ∀ s ∈ segments.take i, s.takesRest = false

section Listed

variable {s : Segment} {segments : List Segment} {name : String} {p : Presence}

theorem listedAt_zero :
    ListedAt (s :: segments) name p 0 ↔ ∃ a, s = .param name a ∧ a.presence = p := by
  simp [ListedAt]

theorem listedAt_succ {i : Nat} :
    ListedAt (s :: segments) name p (i + 1) ↔
      s.takesRest = false ∧ ListedAt segments name p i := by
  simp only [ListedAt, List.getElem?_cons_succ, List.take_succ_cons, List.forall_mem_cons]
  constructor
  · rintro ⟨a, hs, hp, hfree, hrest⟩
    exact ⟨hfree, a, hs, hp, hrest⟩
  · rintro ⟨hfree, a, hs, hp, hrest⟩
    exact ⟨a, hs, hp, hfree, hrest⟩

/-- **Listed parameters by position.** -/
theorem mem_parametersOf_iff :
    (name, p) ∈ Template.parametersOf segments ↔ ∃ i, ListedAt segments name p i := by
  induction segments with
  | nil => simp [Template.parametersOf, ListedAt]
  | cons s segments ih =>
    rw [mem_parametersOf_cons, ih]
    constructor
    · rintro (h | ⟨hfree, i, hi⟩)
      · exact ⟨0, listedAt_zero.mpr h⟩
      · exact ⟨i + 1, listedAt_succ.mpr ⟨hfree, hi⟩⟩
    · rintro ⟨i, hi⟩
      cases i with
      | zero => exact Or.inl (listedAt_zero.mp hi)
      | succ i =>
        obtain ⟨hfree, hi⟩ := listedAt_succ.mp hi
        exact Or.inr ⟨hfree, i, hi⟩

end Listed

/-! ## Bound and listed names -/

theorem Segment.takesRest_eq_false_of_passes {s : Segment} {token : String} (h : s.Passes token) :
    s.takesRest = false := by
  cases s with
  | literal text | wildcard lead => rfl
  | param name a => exact takesRest_of_passes h

theorem Segment.exists_wildcard_of_captures {o : Options} {s : Segment} {token : String}
    (h : s.Captures o token) (hfree : s.takesRest = false) : ∃ lead, s = .wildcard lead := by
  cases s with
  | literal text => exact absurd h id
  | wildcard lead => exact ⟨lead, rfl⟩
  | param name a =>
    have ha : a.takesRest = true := takesRest_of_captures h
    exact absurd (ha.symm.trans hfree) (by decide)

theorem Segment.presence_eq_optional_of_passes {name : String} {a : Arity}
    (h : (param name a).Passes "") : a.presence = .optional := by
  cases a with
  | one => exact absurd rfl h
  | zeroOrOne | zeroOrMore => rfl
  | oneOrMore => exact absurd h id

theorem Segment.presence_eq_optional_of_captures {o : Options} {name : String} {a : Arity}
    (h : (param name a).Captures o "") : a.presence = .optional := by
  cases a with
  | one => exact absurd h id
  | zeroOrOne | zeroOrMore => rfl
  | oneOrMore => exact absurd rfl h

section Stops

variable {o : Options} {segments : List Segment} {tokens : List String} {k : Nat}

/-- What is bound is listed. -/
theorem StopsAt.mem_parametersOf (hk : StopsAt o segments tokens k) {i : Nat} (hi : i ≤ k)
    {name : String} {a : Arity} (hs : segments[i]? = some (.param name a)) :
    (name, a.presence) ∈ Template.parametersOf segments := by
  refine mem_parametersOf_iff.mpr ⟨i, a, hs, rfl, ?_⟩
  intro u hu
  obtain ⟨j, hj⟩ := List.mem_iff_getElem?.mp hu
  rw [List.getElem?_take, Option.ite_none_right_eq_some] at hj
  obtain ⟨w, hw, hp⟩ := hk.1 j (by omega)
  cases hj.2.symm.trans hw
  exact Segment.takesRest_eq_false_of_passes hp

/-- Without a captured rest, what is listed is bound. -/
theorem StopsAt.le_of_listedAt (hk : StopsAt o segments tokens k)
    (hrest : (findingsAt o.decoding segments tokens k).rest = none) {i : Nat} {name : String}
    {p : Presence} (hi : ListedAt segments name p i) : i ≤ k := by
  obtain ⟨a, hs, -, hfree⟩ := hi
  have hilt : i < segments.length := (List.getElem?_eq_some_iff.mp hs).1
  refine Nat.le_of_not_lt fun hlt => ?_
  -- A segment that ends the walk in front of a listed parameter can only be a wildcard.
  obtain ⟨s, hsk, hc⟩ | ⟨rfl, -⟩ := hk.2
  · have hmem : s ∈ segments.take i :=
      List.mem_of_getElem? ((List.getElem?_take_of_lt hlt).trans hsk)
    obtain ⟨lead, rfl⟩ := Segment.exists_wildcard_of_captures hc (hfree s hmem)
    rw [rest_findingsAt_eq_some_iff.mpr ⟨⟨lead, hsk⟩, rfl⟩] at hrest
    simp at hrest
  · omega

/-- Past the end of the path only an optional parameter is bound. -/
theorem StopsAt.presence_eq_optional (hk : StopsAt o segments tokens k) {i : Nat} (hi : i ≤ k)
    {name : String} {a : Arity} (hs : segments[i]? = some (.param name a))
    (hend : tokenAt tokens i = "") : a.presence = .optional := by
  have hilt : i < segments.length := (List.getElem?_eq_some_iff.mp hs).1
  rcases Nat.lt_or_eq_of_le hi with hlt | rfl
  · obtain ⟨s, hs', hp⟩ := hk.1 i hlt
    cases hs.symm.trans hs'
    exact Segment.presence_eq_optional_of_passes (hend ▸ hp)
  · obtain ⟨s, hs', hc⟩ | ⟨rfl, -⟩ := hk.2
    · cases hs.symm.trans hs'
      exact Segment.presence_eq_optional_of_captures (hend ▸ hc)
    · omega

variable {name : String}

theorem StopsAt.mem_params_iff_listed (hk : StopsAt o segments tokens k)
    (hrest : (findingsAt o.decoding segments tokens k).rest = none) :
    name ∈ ((findingsAt o.decoding segments tokens k).toMatch {}).params ↔
      name ∈ (Template.parametersOf segments).map Prod.fst := by
  rw [mem_params_findingsAt_iff]
  constructor
  · rintro ⟨i, hi, a, hs⟩
    exact List.mem_map_of_mem (hk.mem_parametersOf hi hs)
  · intro hname
    obtain ⟨⟨n, p⟩, hp, rfl⟩ := List.mem_map.mp hname
    obtain ⟨i, hi⟩ := mem_parametersOf_iff.mp hp
    obtain ⟨a, hs, -⟩ := id hi
    exact ⟨i, hk.le_of_listedAt hrest hi, a, hs⟩

/-- The wildcard that captures binds nothing. -/
theorem mem_params_iff_mem_names_take {d : Decoding} {lead : String}
    (hlead : segments[k]? = some (.wildcard lead)) :
    name ∈ ((findingsAt d segments tokens k).toMatch {}).params ↔
      name ∈ names (segments.take k) := by
  rw [mem_params_findingsAt_iff, mem_names_take_iff]
  constructor
  · rintro ⟨i, hi, a, hs⟩
    have hne : i ≠ k := by
      rintro rfl
      simp [hlead] at hs
    exact ⟨i, by omega, a, hs⟩
  · rintro ⟨i, hi, a, hs⟩
    exact ⟨i, by omega, a, hs⟩

theorem StopsAt.value_eq_empty (hk : StopsAt o segments tokens k) (ht : ∀ t ∈ tokens, t ≠ "")
    (hdistinct : (names segments).Nodup) {i : Nat} {a : Arity} {v : String}
    (hs : segments[i]? = some (.param name a))
    (hv : ((findingsAt o.decoding segments tokens k).toMatch {}).get? name = some v) :
    (v = "" ↔ tokens.length ≤ i) ∧ (v = "" → a.presence = .optional) := by
  obtain ⟨j, hj, b, hs', rfl⟩ := mem_bindings_findingsAt.mp (mem_bindings_of_get? hv)
  obtain rfl : i = j := position_unique hdistinct hs hs'
  have hvalue : valueAt o.decoding tokens k i = "" ↔ tokens.length ≤ i :=
    valueAt_eq_empty_iff ht
  refine ⟨hvalue, fun hempty => ?_⟩
  have hend : tokenAt tokens i = "" := (tokenAt_eq_empty_iff ht).mpr (hvalue.mp hempty)
  exact hk.presence_eq_optional hj hs hend

end Stops

/-- **Bound and listed names.** On an empty seed, a match without a captured rest holds exactly
the listed names. With one it holds the names in front of the wildcard that captured, all of them
listed. Where the names of the template differ from each other, the value of a parameter is empty
exactly when the path ends before its position, which happens to optional ones only. -/
theorem bound_names (t : Template) (path : String) (m : Match)
    (h : t.resolve path {} = some m) :
    (m.rest = none → ∀ name, name ∈ m.params ↔ name ∈ t.parameters.map Prod.fst) ∧
    (∀ rest, m.rest = some rest → ∃ k lead,
      StopsAt t.options t.segments (Path.tokens path) k ∧
      t.segments[k]? = some (.wildcard lead) ∧
      rest = Path.ofTokens ((Path.tokens path).drop k) ∧
      (∀ name, name ∈ m.params ↔ name ∈ names (t.segments.take k)) ∧
      ∀ name ∈ m.params, name ∈ t.parameters.map Prod.fst) ∧
    ((names t.segments).Nodup → ∀ i name a v,
      t.segments[i]? = some (.param name a) → m.get? name = some v →
        (v = "" ↔ (Path.tokens path).length ≤ i) ∧ (v = "" → a.presence = .optional)) := by
  obtain ⟨k, hk, rfl⟩ := Template.resolve_eq_some_iff.mp h
  have ht : ∀ t ∈ Path.tokens path, t ≠ "" := fun t ht => (Path.isToken_of_mem_tokens ht).1
  refine ⟨?_, ?_, ?_⟩
  · intro hrest name
    exact hk.mem_params_iff_listed hrest
  · intro rest hrest
    rw [Findings.rest_toMatch, rest_findingsAt_eq_some_iff] at hrest
    obtain ⟨⟨lead, hlead⟩, rfl⟩ := hrest
    refine ⟨k, lead, hk, hlead, rfl, fun name => mem_params_iff_mem_names_take hlead, ?_⟩
    intro name hname
    obtain ⟨i, hi, a, hs⟩ := mem_params_findingsAt_iff.mp hname
    exact List.mem_map_of_mem (hk.mem_parametersOf hi hs)
  · intro hdistinct i name a v hs hv
    exact hk.value_eq_empty ht hdistinct hs hv

/-- The path may end before the optional parameter, or go on into the wildcard. -/
theorem bound_names_shop :
    (∃ m, (Template.ofString "/:kind/:item?/*").resolve "/a%20b" {} = some m ∧
      (∀ name, name ∈ m.params ↔ name ∈ ["kind", "item"]) ∧
      ∀ v, m.get? "item" = some v → v = "") ∧
    ∃ m, (Template.ofString "/:kind/:item?/*").resolve "/a%20b/cup/x/y" {} = some m ∧
      (∃ k lead, (Template.ofString "/:kind/:item?/*").segments[k]? = some (.wildcard lead) ∧
        ∀ name, name ∈ m.params ↔
          name ∈ names ((Template.ofString "/:kind/:item?/*").segments.take k)) ∧
      ∀ v, m.get? "item" = some v → v ≠ "" := by
  have hshort : (Template.ofString "/:kind/:item?/*").resolve "/a%20b" {} =
      some { params := Std.ExtTreeMap.ofList [("kind", "a b"), ("item", "")] } := by decide
  have hlong : (Template.ofString "/:kind/:item?/*").resolve "/a%20b/cup/x/y" {} =
      some { params := Std.ExtTreeMap.ofList [("kind", "a b"), ("item", "cup")]
             rest := some "/x/y" } := by decide
  obtain ⟨hall, -, hempty⟩ := bound_names _ _ _ hshort
  obtain ⟨-, hcaptured, hfull⟩ := bound_names _ _ _ hlong
  refine ⟨⟨_, hshort, hall rfl, ?_⟩, _, hlong, ?_, ?_⟩
  · intro v hv
    exact (hempty (by decide) 1 "item" .zeroOrOne v (by decide) hv).1.mpr (by decide)
  · obtain ⟨k, lead, -, hlead, -, hnames, -⟩ := hcaptured "/x/y" rfl
    exact ⟨k, lead, hlead, hnames⟩
  · intro v hv hv0
    have hlen := (hfull (by decide) 1 "item" .zeroOrOne v (by decide) hv).1.mp hv0
    exact absurd hlen (by decide)

end PathTemplate
