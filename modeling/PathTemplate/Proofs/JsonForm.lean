import Mathlib.Data.Set.List
import PathTemplate.Match.Json
import PathTemplate.Proofs.Bindings
import PathTemplate.Proofs.Entries

/-!
Matches in JSON. `Form` says which values describe a match, and reading finds the match that a value
describes (`ofJson_eq_ok_iff`), as long as no object names a member twice. What a match is written
as describes it (`form_toJson`), so reading gives it back, and two values describe the same match
exactly if what they are read as is written the same (`json_form`).
-/

namespace PathTemplate

/-- No object in the value names a member twice. -/
inductive Json.Distinct : Json → Prop
  | null : Distinct .null
  | boolean (b : Bool) : Distinct (.boolean b)
  | integer (i : Int) : Distinct (.integer i)
  | float (x : Binary64) : Distinct (.float x)
  | string (s : String) : Distinct (.string s)
  | array {items : List Json} (hitems : ∀ v ∈ items, Distinct v) : Distinct (.array items)
  | object {members : List (String × Json)} (hnames : (members.map Prod.fst).Nodup)
      (hmembers : ∀ e ∈ members, Distinct e.2) : Distinct (.object members)

theorem Json.Distinct.names {members : List (String × Json)} (h : (Json.object members).Distinct) :
    (members.map Prod.fst).Nodup := by
  cases h with
  | object hnames _ => exact hnames

namespace Match

open Json

/-! ## Parameters -/

/-- The member that holds a parameter. -/
def memberOf (entry : String × String) : String × Json := (entry.1, .string entry.2)

/-- The members are the parameters, as strings. -/
def Lists (members : List (String × Json)) (ps : Params) : Prop :=
  ∀ name v, (name, v) ∈ members ↔ ∃ s, ps[name]? = some s ∧ v = .string s

theorem Lists.unique {members : List (String × Json)} {ps qs : Params} (hp : Lists members ps)
    (hq : Lists members qs) : ps = qs := by
  have hiff : ∀ name s : String, ps[name]? = some s ↔ qs[name]? = some s := by
    intro name s
    simpa using (hp name (.string s)).symm.trans (hq name (.string s))
  exact Std.ExtTreeMap.ext_getElem? fun name => Option.ext (hiff name)

theorem Lists.eq_string {members : List (String × Json)} {ps : Params} (h : Lists members ps)
    {e : String × Json} (he : e ∈ members) : ∃ s, e.2 = .string s := by
  obtain ⟨s, -, hs⟩ := (h e.1 e.2).mp he
  exact ⟨s, hs⟩

theorem mem_map_memberOf {entries : List (String × String)} {name : String} {v : Json} :
    (name, v) ∈ entries.map memberOf ↔ ∃ s, (name, s) ∈ entries ∧ v = .string s := by
  simp only [List.mem_map, memberOf, Prod.mk.injEq, Prod.exists]
  constructor
  · rintro ⟨_, s, hs, rfl, rfl⟩
    exact ⟨s, hs, rfl⟩
  · rintro ⟨s, hs, rfl⟩
    exact ⟨name, s, hs, rfl, rfl⟩

theorem lists_toList (ps : Params) : Lists (ps.toList.map memberOf) ps := by
  intro name v
  simp only [mem_map_memberOf, Std.ExtTreeMap.mem_toList_iff_getElem?_eq_some]

theorem map_fst_memberOf (entries : List (String × String)) :
    (entries.map memberOf).map Prod.fst = entries.map Prod.fst := by
  simp [memberOf]

/-- Inserting entries one after the other, none of them twice, makes a map of just these. -/
theorem lists_foldl_insert {entries : List (String × String)}
    (hnames : (entries.map Prod.fst).Nodup) :
    Lists (entries.map memberOf) (entries.foldl (fun ps e => ps.insert e.1 e.2) {}) := by
  have hrev : (entries.reverse.map Prod.fst).Nodup := by
    rwa [List.map_reverse, List.nodup_reverse]
  intro name v
  simp only [mem_map_memberOf, getElem?_foldl_insert, Std.ExtTreeMap.getElem?_empty,
    Option.or_none, lookup_eq_some_iff_mem hrev, List.mem_reverse]

theorem stringOf_eq_ok_iff {v : Json} {s : String} : stringOf v = .ok s ↔ v = .string s := by
  cases v <;> simp [stringOf]

theorem insertMember_eq_ok_iff {ps qs : Params} {member : String × Json} :
    insertMember ps member = .ok qs ↔
      ∃ s, member.2 = .string s ∧ ps.insert member.1 s = qs := by
  simp only [insertMember, bind_eq_ok_iff, stringOf_eq_ok_iff, pure, Except.pure, Except.ok.injEq]

theorem foldlM_insertMember_eq_ok_iff {members : List (String × Json)} {ps qs : Params} :
    members.foldlM insertMember ps = .ok qs ↔
      ∃ entries : List (String × String), entries.map memberOf = members ∧
        entries.foldl (fun ps e => ps.insert e.1 e.2) ps = qs := by
  induction members generalizing ps with
  | nil =>
    simp [pure, Except.pure]
  | cons member members ih =>
    simp only [List.foldlM_cons, bind_eq_ok_iff, insertMember_eq_ok_iff, ih]
    constructor
    · rintro ⟨_, ⟨s, hs, rfl⟩, entries, rfl, hfold⟩
      exact ⟨(member.1, s) :: entries, by simp [memberOf, ← hs], hfold⟩
    · rintro ⟨entries, hentries, hfold⟩
      cases entries with
      | nil => simp at hentries
      | cons e entries =>
        obtain ⟨rfl, rfl⟩ := List.cons.inj hentries
        exact ⟨_, ⟨e.2, rfl, rfl⟩, entries, rfl, hfold⟩

theorem exists_entries_iff {members : List (String × Json)} :
    (∃ entries : List (String × String), entries.map memberOf = members) ↔
      ∀ e ∈ members, ∃ s, e.2 = .string s := by
  have hrange : ∀ e : String × Json, e ∈ Set.range memberOf ↔ ∃ s, e.2 = .string s := by
    rintro ⟨name, v⟩
    simp [memberOf, eq_comm]
  rw [← Set.mem_range, Set.range_list_map]
  exact forall₂_congr fun e _ => hrange e

/-- An object that holds nothing but strings. -/
def HoldsStrings (v : Json) : Prop :=
  ∃ members, v = .object members ∧ ∀ e ∈ members, ∃ s, e.2 = .string s

theorem exists_paramsOf_iff {v : Json} : (∃ ps, paramsOf v = .ok ps) ↔ HoldsStrings v := by
  cases v with
  | object members =>
    have hsorted : (∃ ps, paramsOf (.object members) = .ok ps) ↔
        ∃ entries : List (String × String),
          entries.map memberOf = members.mergeSort fun a b => a.1 ≤ b.1 := by
      simp only [paramsOf, foldlM_insertMember_eq_ok_iff]
      rw [exists_comm]
      simp
    rw [hsorted, exists_entries_iff]
    simp [HoldsStrings, List.mem_mergeSort]
  | null | boolean _ | integer _ | float _ | string _ | array _ => simp [paramsOf, HoldsStrings]

/-- Members of distinct names are read as the parameters that they list. -/
theorem paramsOf_eq_ok_iff {members : List (String × Json)} {ps : Params}
    (hnames : (members.map Prod.fst).Nodup) :
    paramsOf (.object members) = .ok ps ↔ Lists members ps := by
  have hlists : ∀ qs, paramsOf (.object members) = .ok qs → Lists members qs := by
    intro qs hqs
    obtain ⟨entries, hentries, rfl⟩ := foldlM_insertMember_eq_ok_iff.mp hqs
    -- Members are sorted before they are read, which keeps them as a set.
    have hperm : (entries.map memberOf).Perm members := hentries ▸ List.mergeSort_perm members _
    have hnodup : (entries.map Prod.fst).Nodup := by
      rw [← map_fst_memberOf]
      exact (hperm.map Prod.fst).nodup_iff.mpr hnames
    intro name v
    rw [← hperm.mem_iff]
    exact lists_foldl_insert hnodup name v
  refine ⟨hlists ps, fun h => ?_⟩
  obtain ⟨qs, hqs⟩ := exists_paramsOf_iff.mpr ⟨members, rfl, fun e he => h.eq_string he⟩
  rw [hqs, h.unique (hlists qs hqs)]

/-! ## The rest -/

/-- A string stands for a rest, null for none. -/
def RestForm (v : Json) (rest : Option String) : Prop :=
  v = .null ∧ rest = none ∨ ∃ s, v = .string s ∧ rest = some s

theorem restOf_eq_ok_iff {r : Option Json} {rest : Option String} :
    restOf r = .ok rest ↔ RestForm (r.getD .null) rest := by
  have hnone : none = rest ↔ rest = none := eq_comm
  cases r with
  | none => simp [restOf, RestForm, hnone]
  | some v =>
    cases v with
    | null => simp [restOf, RestForm, hnone]
    | string s => simp [restOf, RestForm, stringOf, Functor.map, Except.map, eq_comm]
    | boolean _ | integer _ | float _ | array _ | object _ =>
      simp [restOf, RestForm, stringOf, Functor.map, Except.map]

/-- A value that may stand for a rest or for none. -/
def IsRest (v : Json) : Prop := v = .null ∨ ∃ s, v = .string s

theorem exists_restForm_iff {v : Json} : (∃ rest, RestForm v rest) ↔ IsRest v := by
  simp only [RestForm, IsRest]
  constructor
  · rintro ⟨rest, ⟨rfl, -⟩ | ⟨s, rfl, -⟩⟩
    · exact Or.inl rfl
    · exact Or.inr ⟨s, rfl⟩
  · rintro (rfl | ⟨s, rfl⟩)
    · exact ⟨none, Or.inl ⟨rfl, rfl⟩⟩
    · exact ⟨some s, Or.inr ⟨s, rfl, rfl⟩⟩

theorem isRest_lookup_iff {members : List (String × Json)} (hnames : (members.map Prod.fst).Nodup) :
    IsRest ((members.lookup "rest").getD .null) ↔ ∀ v, ("rest", v) ∈ members → IsRest v := by
  simp only [← lookup_eq_some_iff_mem hnames]
  cases members.lookup "rest" with
  | none => simp [IsRest]
  | some v => simp

theorem isRest_head?_iff {items : List Json} (hlength : items.length ≤ 1) :
    IsRest (items.head?.getD .null) ↔ ∀ v ∈ items, IsRest v := by
  match items, hlength with
  | [], _ => simp [IsRest]
  | [v], _ => simp

/-! ## Matches -/

theorem ofJson_object_eq_ok_iff {members : List (String × Json)} {m : Match} :
    ofJson (.object members) = .ok m ↔
      ∃ v, members.lookup "params" = some v ∧ paramsOf v = .ok m.params ∧
        RestForm ((members.lookup "rest").getD .null) m.rest := by
  rw [← restOf_eq_ok_iff]
  cases hparams : members.lookup "params" with
  | none =>
    simp only [ofJson, hparams, Option.mapM_none, bind_eq_ok_iff, pure, Except.pure]
    simp [throw, throwThe, MonadExceptOf.throw]
  | some v =>
    simp only [ofJson, hparams, Option.mapM_some, bind_eq_ok_iff, map_eq_ok_iff,
      Option.some.injEq, exists_eq_left']
    constructor
    · rintro ⟨_, ⟨ps, hps, rfl⟩, rest, hrest, hm⟩
      cases hm
      exact ⟨hps, hrest⟩
    · rintro ⟨hps, hrest⟩
      exact ⟨_, ⟨_, hps, rfl⟩, _, hrest, rfl⟩

theorem ofJson_array_eq_ok_iff {params : Json} {items : List Json} {m : Match} :
    ofJson (.array (params :: items)) = .ok m ↔
      paramsOf params = .ok m.params ∧ items.length ≤ 1 ∧
        RestForm (items.head?.getD .null) m.rest := by
  rw [← restOf_eq_ok_iff]
  have hlength : checkLength (params :: items) 2 = .ok () ↔ items.length ≤ 1 := by
    simp [checkLength]
  simp only [ofJson, bind_eq_ok_iff, hlength, exists_const]
  constructor
  · rintro ⟨ps, hps, rest, hrest, hle, hm⟩
    cases hm
    exact ⟨hps, hle, hrest⟩
  · rintro ⟨hps, hle, hrest⟩
    exact ⟨_, hps, _, hrest, hle, rfl⟩

/-- The value describes the match: as an object that may hold other members besides, or as an
array. -/
inductive Form : Json → Match → Prop
  | object {members params : List (String × Json)} {m : Match}
      (hparams : ("params", .object params) ∈ members) (hlists : Lists params m.params)
      (hrest : RestForm ((members.lookup "rest").getD .null) m.rest) : Form (.object members) m
  | array {params : List (String × Json)} {items : List Json} {m : Match}
      (hlists : Lists params m.params) (hlength : items.length ≤ 1)
      (hrest : RestForm (items.head?.getD .null) m.rest) : Form (.array (.object params :: items)) m

/-- The value has the shape of a match: an object with parameters and perhaps a rest, or an array
of the two. -/
inductive Shaped : Json → Prop
  | object {members : List (String × Json)} {params : Json} (hparams : ("params", params) ∈ members)
      (hstrings : HoldsStrings params) (hrest : ∀ v, ("rest", v) ∈ members → IsRest v) :
      Shaped (.object members)
  | array {params : Json} {items : List Json} (hstrings : HoldsStrings params)
      (hlength : items.length ≤ 1) (hrest : ∀ v ∈ items, IsRest v) :
      Shaped (.array (params :: items))

/-- **Reading finds what a value describes.** -/
theorem ofJson_eq_ok_iff {v : Json} (hv : v.Distinct) {m : Match} :
    ofJson v = .ok m ↔ Form v m := by
  cases hv with
  | object hnames hmembers =>
    rw [ofJson_object_eq_ok_iff]
    constructor
    · rintro ⟨params, hlookup, hps, hrest⟩
      obtain ⟨listed, rfl, -⟩ := exists_paramsOf_iff.mp ⟨_, hps⟩
      have hparams := mem_of_lookup hlookup
      exact .object hparams ((paramsOf_eq_ok_iff (hmembers _ hparams).names).mp hps) hrest
    · intro h
      cases h with
      | object hparams hlists hrest =>
        exact ⟨_, (lookup_eq_some_iff_mem hnames).mpr hparams,
          (paramsOf_eq_ok_iff (hmembers _ hparams).names).mpr hlists, hrest⟩
  | @array items hitems =>
    cases items with
    | nil =>
      constructor
      · intro h
        cases h
      · intro h
        cases h
    | cons params items =>
      have hparams := hitems params List.mem_cons_self
      rw [ofJson_array_eq_ok_iff]
      constructor
      · rintro ⟨hps, hlength, hrest⟩
        obtain ⟨listed, rfl, -⟩ := exists_paramsOf_iff.mp ⟨_, hps⟩
        exact .array ((paramsOf_eq_ok_iff hparams.names).mp hps) hlength hrest
      · intro h
        cases h with
        | array hlists hlength hrest =>
          exact ⟨(paramsOf_eq_ok_iff hparams.names).mpr hlists, hlength, hrest⟩
  | null | boolean _ | integer _ | float _ | string _ =>
    constructor
    · intro h
      cases h
    · intro h
      cases h

/-- **What can be read.** -/
theorem exists_ofJson_iff {v : Json} (hv : v.Distinct) :
    (∃ m, ofJson v = .ok m) ↔ Shaped v := by
  cases hv with
  | object hnames hmembers =>
    simp only [ofJson_object_eq_ok_iff]
    constructor
    · rintro ⟨m, params, hlookup, hps, hrest⟩
      exact .object (mem_of_lookup hlookup) (exists_paramsOf_iff.mp ⟨_, hps⟩)
        ((isRest_lookup_iff hnames).mp (exists_restForm_iff.mp ⟨_, hrest⟩))
    · intro h
      cases h with
      | object hparams hstrings hrest =>
        obtain ⟨ps, hps⟩ := exists_paramsOf_iff.mpr hstrings
        obtain ⟨rest, hrest⟩ := exists_restForm_iff.mpr ((isRest_lookup_iff hnames).mpr hrest)
        exact ⟨⟨ps, rest⟩, _, (lookup_eq_some_iff_mem hnames).mpr hparams, hps, hrest⟩
  | @array items hitems =>
    cases items with
    | nil =>
      constructor
      · rintro ⟨m, h⟩
        cases h
      · intro h
        cases h
    | cons params items =>
      simp only [ofJson_array_eq_ok_iff]
      constructor
      · rintro ⟨m, hps, hlength, hrest⟩
        exact .array (exists_paramsOf_iff.mp ⟨_, hps⟩) hlength
          ((isRest_head?_iff hlength).mp (exists_restForm_iff.mp ⟨_, hrest⟩))
      · intro h
        cases h with
        | array hstrings hlength hrest =>
          obtain ⟨ps, hps⟩ := exists_paramsOf_iff.mpr hstrings
          obtain ⟨rest, hrest⟩ := exists_restForm_iff.mpr ((isRest_head?_iff hlength).mpr hrest)
          exact ⟨⟨ps, rest⟩, hps, hlength, hrest⟩
  | null | boolean _ | integer _ | float _ | string _ =>
    constructor
    · rintro ⟨m, h⟩
      cases h
    · intro h
      cases h

/-! ## Writing -/

theorem rest_mem_toJson_iff (m : Match) :
    ∃ members, m.toJson = .object members ∧
      ∀ v, ("rest", v) ∈ members ↔ ∃ rest, m.rest = some rest ∧ v = .string rest := by
  refine ⟨_, rfl, ?_⟩
  intro v
  cases m.rest <;> simp

theorem form_toJson (m : Match) : Form m.toJson m := by
  refine .object List.mem_cons_self (lists_toList m.params) ?_
  cases m.rest with
  | none => exact Or.inl ⟨rfl, rfl⟩
  | some rest => exact Or.inr ⟨rest, rfl, rfl⟩

theorem distinct_toJson (m : Match) : m.toJson.Distinct := by
  have hparams : (paramsJson m.params).Distinct := by
    refine .object ?_ ?_
    · have hkeys : (m.params.toList.map Prod.fst).Nodup := by
        rw [Std.ExtTreeMap.map_fst_toList_eq_keys]
        exact Std.ExtTreeMap.nodup_keys
      rwa [← map_fst_memberOf] at hkeys
    · intro e he
      obtain ⟨s, hs⟩ := (lists_toList m.params).eq_string he
      rw [hs]
      exact .string s
  refine .object ?_ ?_
  · cases m.rest <;> simp
  · cases m.rest with
    | none => simpa using hparams
    | some rest => simpa using ⟨hparams, .string rest⟩

theorem ofJson_toJson (m : Match) : ofJson m.toJson = .ok m :=
  (ofJson_eq_ok_iff (distinct_toJson m)).mpr (form_toJson m)

theorem toJson_inj {m n : Match} : m.toJson = n.toJson ↔ m = n := by
  constructor
  · intro h
    exact Except.ok.inj ((ofJson_toJson m).symm.trans (h ▸ ofJson_toJson n))
  · rintro rfl
    rfl

/-- **Matches in JSON.** What a match is written as is read as the match again, and has a rest
exactly if the match has one. A value is read exactly if it has the shape of a match, and as the
match that it describes; two values are read as the same match exactly if what they are read as is
written the same. -/
theorem json_form :
    (∀ m : Match, ofJson m.toJson = .ok m ∧ m.toJson.Distinct ∧
      ∃ members, m.toJson = .object members ∧ ((∃ v, ("rest", v) ∈ members) ↔ m.rest.isSome)) ∧
    (∀ v : Json, v.Distinct →
      ((∃ m, ofJson v = .ok m) ↔ Shaped v) ∧ ∀ m, ofJson v = .ok m ↔ Form v m) ∧
    ∀ v w : Json, v.Distinct → w.Distinct → ∀ m n, ofJson v = .ok m → ofJson w = .ok n →
      ofJson m.toJson = .ok m ∧ (m = n ↔ m.toJson = n.toJson) := by
  refine ⟨?_, ?_, ?_⟩
  · intro m
    obtain ⟨members, hmembers, hrest⟩ := rest_mem_toJson_iff m
    refine ⟨ofJson_toJson m, distinct_toJson m, members, hmembers, ?_⟩
    simp only [hrest]
    rw [exists_comm]
    simp [Option.isSome_iff_exists]
  · intro v hv
    exact ⟨exists_ofJson_iff hv, fun m => ofJson_eq_ok_iff hv⟩
  · intro v w _ _ m n _ _
    exact ⟨ofJson_toJson m, toJson_inj.symm⟩

/-- An object with a null rest and a member that is passed over, and an array without a rest. -/
theorem json_form_item :
    ∃ (v w : Json) (m : Match),
      v = .object [("rest", .null), ("at", .array []),
        ("params", .object [("item", .string "7"), ("", .string "")])] ∧
      w = .array [.object [("", .string ""), ("item", .string "7")]] ∧
      (v.Distinct ∧ w.Distinct ∧ ofJson v = .ok m ∧ ofJson w = .ok m) ∧
      Shaped v ∧ Form w m ∧ ofJson m.toJson = .ok m := by
  have hentries : Distinct (.object [("item", .string "7"), ("", .string "")]) :=
    .object (by decide) (by simp [Distinct.string])
  have hv : Distinct (.object [("rest", .null), ("at", .array []),
      ("params", .object [("item", .string "7"), ("", .string "")])]) :=
    .object (by decide) (by simp [Distinct.null, Distinct.array, hentries])
  have hw : Distinct (.array [.object [("", .string ""), ("item", .string "7")]]) :=
    .array (by simpa using .object (by decide) (by simp [Distinct.string]))
  have hnames : ([("item", "7"), ("", "")].map Prod.fst).Nodup := by decide
  have hlists : Lists [("item", .string "7"), ("", .string "")]
      ([("item", "7"), ("", "")].foldl (fun ps e => ps.insert e.1 e.2) {}) :=
    lists_foldl_insert hnames
  have hlists' : Lists [("", .string ""), ("item", .string "7")]
      ([("item", "7"), ("", "")].foldl (fun ps e => ps.insert e.1 e.2) {}) := by
    intro name v
    rw [← hlists name v, List.mem_pair, List.mem_pair, or_comm]
  have hvm := (ofJson_eq_ok_iff (m := ⟨_, none⟩) hv).mpr
    (.object (by simp) hlists (Or.inl ⟨rfl, rfl⟩))
  have hwm := (ofJson_eq_ok_iff (m := ⟨_, none⟩) hw).mpr
    (.array hlists' (by simp) (Or.inl ⟨rfl, rfl⟩))
  obtain ⟨-, hread, hsame⟩ := json_form
  exact ⟨_, _, _, rfl, rfl, ⟨hv, hw, hvm, hwm⟩, (hread _ hv).1.mp ⟨_, hvm⟩,
    ((hread _ hw).2 _).mp hwm, (hsame _ _ hv hw _ _ hvm hwm).1⟩

end Match
end PathTemplate
