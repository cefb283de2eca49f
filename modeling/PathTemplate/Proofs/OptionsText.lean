import PathTemplate.Proofs.Settings

/-!
What a document says of the options stands under one key, and under two keys of the table there; the
other entries are passed over (`ofDocument_relevant`). The order of keys does not count either, at
any depth (`describes_congr`), except that of several faults the first is reported. For texts that
are documents, `ofText_of_document` puts this together.
-/

namespace PathTemplate

namespace Toml

/-! ## The order of keys -/

mutual

/-- The same value, but for the order of keys and for how tables came into being. -/
inductive Value.Alike : Value → Value → Prop
  | refl (v : Value) : Value.Alike v v
  | array {items items' : List Value} (hitems : List.Forall₂ Value.Alike items items') :
      Value.Alike (.array items) (.array items')
  | table {origin origin' : Origin} {es es' : Entries} (hes : Entries.Alike es es') :
      Value.Alike (.table origin es) (.table origin' es')
  | tables {items items' : List Entries} (hitems : List.Forall₂ Entries.Alike items items') :
      Value.Alike (.tables items) (.tables items')

/-- Entries that align once they are brought into another order. -/
inductive Entries.Alike : Entries → Entries → Prop
  | mk {es mid es' : Entries} (horder : es.Perm mid) (h : Entries.Aligned mid es') :
      Entries.Alike es es'

/-- The same keys in the same order, over values that are alike. -/
inductive Entries.Aligned : Entries → Entries → Prop
  | nil : Entries.Aligned [] []
  | cons (key : String) {v v' : Value} {es es' : Entries} (hv : Value.Alike v v')
      (h : Entries.Aligned es es') : Entries.Aligned ((key, v) :: es) ((key, v') :: es')

end

namespace Entries

variable {es es' : Entries} {key : String}

theorem Aligned.refl (es : Entries) : Aligned es es := by
  induction es with
  | nil => exact .nil
  | cons e es ih => exact .cons e.1 (.refl e.2) ih

theorem Alike.refl (es : Entries) : Alike es es := .mk (.refl es) (.refl es)

theorem Aligned.map_fst (h : Aligned es es') : es.map Prod.fst = es'.map Prod.fst := by
  induction es generalizing es' with
  | nil =>
    cases h
    rfl
  | cons e es ih =>
    cases h with
    | cons key _ h => rw [List.map_cons, List.map_cons, ih h]

theorem Aligned.lookup (h : Aligned es es') :
    Option.Rel Value.Alike (es.lookup key) (es'.lookup key) := by
  induction es generalizing es' with
  | nil =>
    cases h
    exact .none
  | cons e es ih =>
    cases h with
    | cons k hv h =>
      rw [List.lookup_cons, List.lookup_cons]
      cases key == k with
      | true => exact .some hv
      | false => exact ih h

theorem Alike.map_fst (h : Alike es es') : (es.map Prod.fst).Perm (es'.map Prod.fst) := by
  cases h with
  | mk horder h =>
    rw [← h.map_fst]
    exact horder.map Prod.fst

theorem Alike.length_eq (h : Alike es es') : es.length = es'.length := by
  simpa using h.map_fst.length_eq

theorem Alike.lookup (h : Alike es es') (hkeys : (es.map Prod.fst).Nodup) :
    Option.Rel Value.Alike (es.lookup key) (es'.lookup key) := by
  cases h with
  | mk horder h =>
    rw [lookup_eq_of_perm horder hkeys]
    exact h.lookup

/-- One entry stays one entry, under its key. -/
theorem Alike.exists_singleton_iff (h : Alike es es') {p : Value → Prop}
    (hp : ∀ v v', Value.Alike v v' → (p v ↔ p v')) :
    (∃ v, es = [(key, v)] ∧ p v) ↔ ∃ v', es' = [(key, v')] ∧ p v' := by
  cases h with
  | mk horder h =>
    constructor
    · rintro ⟨v, rfl, hv⟩
      obtain rfl := List.singleton_perm.mp horder
      cases h with
      | cons _ halike h =>
        cases h
        exact ⟨_, rfl, (hp _ _ halike).mp hv⟩
    · rintro ⟨v', rfl, hv'⟩
      cases h with
      | cons _ halike h =>
        cases h
        exact ⟨_, List.perm_singleton.mp horder, (hp _ _ halike).mpr hv'⟩

theorem aligned_zip (keys : List String) {items items' : List Value}
    (h : List.Forall₂ Value.Alike items items') : Aligned (keys.zip items) (keys.zip items') := by
  induction h generalizing keys with
  | nil => simpa using Aligned.nil
  | cons hv _ ih =>
    cases keys with
    | nil => exact .nil
    | cons key keys => exact .cons key hv (ih keys)

end Entries

namespace Value.Alike

variable {v v' : Value} (h : Alike v v')

include h

theorem isEmpty_iff : v.IsEmpty ↔ v'.IsEmpty := by
  cases h with
  | refl => rfl
  | array hitems =>
    simp only [IsEmpty, ← List.length_eq_zero_iff, hitems.length_eq]
  | table hes =>
    simp only [IsEmpty, ← List.length_eq_zero_iff, hes.length_eq]
  | tables hitems =>
    simp only [IsEmpty, ← List.length_eq_zero_iff, hitems.length_eq]

theorem names_iff {α : Type} [Choice α] {a : α} : Names v a ↔ Names v' a := by
  cases h with
  | refl => rfl
  | array => constructor <;> rintro ⟨⟩
  | tables => constructor <;> rintro ⟨⟩
  | table hes =>
    simp only [names_table_iff]
    exact hes.exists_singleton_iff fun _ _ => isEmpty_iff

end Value.Alike
end Toml

namespace Options

open Toml

theorem settingIs_congr {α : Type} [Choice α] {default a : α} {v v' : Option Value}
    (h : Option.Rel Value.Alike v v') : SettingIs default v a ↔ SettingIs default v' a := by
  cases h with
  | none => rfl
  | some h => exact h.names_iff

theorem settings?_congr {v v' : Value} (h : v.Alike v') :
    Option.Rel Entries.Alike (settings? v) (settings? v') := by
  cases h with
  | refl =>
    cases settings? v with
    | none => exact .none
    | some es => exact .some (.refl es)
  | array hitems => exact .some (.mk (.refl _) (Entries.aligned_zip _ hitems))
  | table hes => exact .some hes
  | tables hitems =>
    -- The order of an array counts, so its items align as they stand.
    refine .some (.mk (.refl _) (Entries.aligned_zip _ ?_))
    simp only [List.forall₂_map_left_iff, List.forall₂_map_right_iff]
    exact hitems.imp fun _ _ => Value.Alike.table

theorem sets_congr {v v' : Value} (hv : v.Distinct) (h : v.Alike v') {o : Options} :
    Sets v o ↔ Sets v' o := by
  have hsettings := settings?_congr h
  unfold Sets
  generalize hes : settings? v = found at hsettings ⊢
  generalize settings? v' = found' at hsettings ⊢
  cases hsettings with
  | none => simp
  | some halike => simp [settingIs_congr (halike.lookup (nodup_of_settings? hv hes))]

/-! ## Other keys -/

def isSetting (e : String × Value) : Bool := e.1 = decodingKey || e.1 = leadsKey

/-- A table without the entries that are no settings. -/
def trim : Value → Value
  | .table origin es => .table origin (es.filter isSetting)
  | v => v

/-- What a document says of the options. -/
def relevant (es : Entries) : Entries :=
  (es.filter (·.1 = tomlKey)).map fun e => (e.1, trim e.2)

theorem ofEntries_filter (es : Entries) : ofEntries (es.filter isSetting) = ofEntries es := by
  have hstep : (fun (o : Options) e => if isSetting e then o.withEntry e else pure o) =
      withEntry := by
    funext o e
    split
    · rfl
    · rename_i h
      simp only [isSetting, Bool.or_eq_true, decide_eq_true_eq, not_or] at h
      exact (withEntry_other h.1 h.2).symm
  rw [ofEntries, List.foldlM_filter, hstep, ofEntries]

theorem ofToml_trim (v : Value) : ofToml (trim v) = ofToml v := by
  cases v with
  | table origin es => exact ofEntries_filter es
  | string _ | integer _ | float _ | boolean _ | dateTime | array _ | tables _ => rfl

theorem lookup_relevant (es : Entries) :
    (relevant es).lookup tomlKey = (es.lookup tomlKey).map trim := by
  induction es with
  | nil => rfl
  | cons e es ih =>
    obtain ⟨key, v⟩ := e
    by_cases h : key = tomlKey
    · subst h
      simp [relevant]
    · have hkey : (tomlKey == key) = false := beq_eq_false_iff_ne.mpr (Ne.symm h)
      rw [List.lookup_cons, hkey, ← ih]
      simp [relevant, h]

/-- **Other keys do not count**, in the document or in the table. -/
theorem ofDocument_relevant (es : Entries) : ofDocument (relevant es) = ofDocument es := by
  rw [ofDocument, lookup_relevant, ofDocument]
  cases es.lookup tomlKey with
  | none => rfl
  | some v => exact ofToml_trim v

theorem distinct_trim {v : Value} (h : v.Distinct) : (trim v).Distinct := by
  cases v with
  | table origin es =>
    cases h with
    | table hes => exact .table (hes.filter isSetting)
  | string _ | integer _ | float _ | boolean _ | dateTime | array _ | tables _ => exact h

theorem distinct_relevant {es : Entries} (h : es.Distinct) : (relevant es).Distinct := by
  have hfilter := h.filter (·.1 = tomlKey)
  refine .mk ?_ ?_
  · rw [relevant, List.map_map]
    exact hfilter.keys
  · intro e he
    obtain ⟨e', he', rfl⟩ := List.mem_map.mp he
    exact distinct_trim (hfilter.values e' he')

/-! ## Documents -/

/-- The document sets the options, by leaving them out or by what it has under their key. -/
def Describes (es : Entries) (o : Options) : Prop :=
  match es.lookup tomlKey with
  | none => o = {}
  | some v => Sets v o

/-- Why the document describes no options. -/
def Blamed (es : Entries) (c : Fault) : Prop :=
  ∃ v, es.lookup tomlKey = some v ∧ Refused v c

theorem ofDocument_eq_ok_iff {es : Entries} (hes : es.Distinct) {o : Options} :
    ofDocument es = .ok o ↔ Describes es o := by
  unfold ofDocument Describes
  cases h : es.lookup tomlKey with
  | none => simp [eq_comm]
  | some v => exact ofToml_eq_ok_iff (hes.of_lookup h)

theorem ofDocument_eq_error_iff {es : Entries} {c : Fault} :
    ofDocument es = .error c ↔ Blamed es c := by
  unfold ofDocument Blamed
  cases h : es.lookup tomlKey with
  | none => simp
  | some v => simp [ofToml_eq_error_iff]

/-- **The order of keys does not count.** -/
theorem describes_congr {es es' : Entries} (hes : es.Distinct) (h : es.Alike es') {o : Options} :
    Describes es o ↔ Describes es' o := by
  have hlookup : Option.Rel Value.Alike (es.lookup tomlKey) (es'.lookup tomlKey) :=
    h.lookup hes.keys
  unfold Describes
  generalize hv : es.lookup tomlKey = found at hlookup ⊢
  generalize es'.lookup tomlKey = found' at hlookup ⊢
  cases hlookup with
  | none => rfl
  | some halike => exact sets_congr (hes.of_lookup hv) halike

theorem ofDocument_congr {es es' : Entries} (hes : es.Distinct) (hes' : es'.Distinct)
    (h : (relevant es).Alike (relevant es')) {o : Options} :
    ofDocument es = .ok o ↔ ofDocument es' = .ok o := by
  rw [← ofDocument_relevant es, ← ofDocument_relevant es',
    ofDocument_eq_ok_iff (distinct_relevant hes), ofDocument_eq_ok_iff (distinct_relevant hes'),
    describes_congr (distinct_relevant hes) h]

/-! ## Texts -/

theorem ofText_eq_of_parse {text : String} {es : Entries}
    (hblank : text.toList.all Text.isBlank = false) (hparse : Toml.parse text = some es) :
    ofText text = (ofDocument es).mapError .fault := by
  simp [ofText, hblank, hparse]

/-- **A document is read by what stands under the key of the options.** They are what it describes,
or its first fault is reported. A document that says the same, in whatever order and whatever else it
holds, describes the same options. -/
theorem ofText_of_document (text : String) (es : Entries)
    (hblank : text.toList.all Text.isBlank = false) (hparse : Toml.parse text = some es) :
    (∀ o, ofText text = .ok o ↔ Describes es o) ∧
    (∀ fault, ofText text = .error fault ↔ ∃ c, fault = .fault c ∧ Blamed es c) ∧
    ∀ other es', other.toList.all Text.isBlank = false → Toml.parse other = some es' →
      (relevant es).Alike (relevant es') → ∀ o, ofText text = .ok o ↔ ofText other = .ok o := by
  have htext := ofText_eq_of_parse hblank hparse
  have hes := parse_distinct hparse
  refine ⟨?_, ?_, ?_⟩
  · intro o
    rw [htext, mapError_eq_ok_iff, ofDocument_eq_ok_iff hes]
  · intro fault
    rw [htext, mapError_eq_error_iff]
    simp only [ofDocument_eq_error_iff]
  · intro other es' hblank' hparse' halike o
    rw [htext, ofText_eq_of_parse hblank' hparse', mapError_eq_ok_iff, mapError_eq_ok_iff]
    exact ofDocument_congr hes (parse_distinct hparse') halike

/-- Two documents that say the same, in different orders, and one with two faults. -/
theorem ofText_of_document_tables :
    ofText "[matching]\nwildcard_prefix = \"strict\"\n[matching.decoding.form]" =
        .ok ⟨.form, .strict⟩ ∧
      ofText "x=1\n[matching.decoding.form]\n[matching]\ny=2\nwildcard_prefix = \"strict\"" =
        .ok ⟨.form, .strict⟩ ∧
      ofText "[matching]\nx = 2\nwildcard_prefix = 3\ndecoding = \"base64\"" =
        .error (.fault .notChoice) := by
  have hparse :
      Toml.parse "[matching]\nwildcard_prefix = \"strict\"\n[matching.decoding.form]" =
        some [(tomlKey, .table .header [(leadsKey, .string "strict"),
          (decodingKey, .table .implied [("form", .table .header [])])])] := by decide +kernel
  have hother :
      Toml.parse "x=1\n[matching.decoding.form]\n[matching]\ny=2\nwildcard_prefix = \"strict\"" =
        some [("x", .integer 1), (tomlKey, .table .header
          [(decodingKey, .table .implied [("form", .table .header [])]), ("y", .integer 2),
            (leadsKey, .string "strict")])] := by decide +kernel
  have hfaulty : Toml.parse "[matching]\nx = 2\nwildcard_prefix = 3\ndecoding = \"base64\"" =
      some [(tomlKey, .table .header [("x", .integer 2), (leadsKey, .integer 3),
        (decodingKey, .string "base64")])] := by decide +kernel
  obtain ⟨hok, -, hsame⟩ := ofText_of_document _ _ (by decide) hparse
  have hform : Names (.table .implied [("form", .table .header [])]) Decoding.form :=
    names_table_iff.mpr ⟨_, rfl, rfl⟩
  have hread := (hok ⟨.form, .strict⟩).mpr ⟨_, rfl, hform, .string LeadRule.strict⟩
  refine ⟨hread, ?_, ?_⟩
  · refine (hsame _ _ (by decide) hother ?_ _).mp hread
    exact .mk (.refl _) (.cons _ (.table (.mk (.swap _ _ _) (.refl _))) .nil)
  · refine ((ofText_of_document _ _ (by decide) hfaulty).2.1 _).mpr ⟨_, rfl, _, rfl, ?_⟩
    refine ⟨[("x", .integer 2)], (leadsKey, .integer 3), [(decodingKey, .string "base64")], rfl,
      ?_, Or.inr ⟨rfl, .notChoice ?_ ?_⟩⟩
    · simp [EntryFault, decodingKey, leadsKey]
    · simp
    · simp

end Options
end PathTemplate
