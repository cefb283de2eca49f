import PathTemplate.Options.Toml
import PathTemplate.Proofs.DistinctKeys

/-!
Settings in TOML. `Names` says which values name a value of a choice, and `Unnamed` why a value names
none. The entries that give settings are read as what they name (`ofEntries_eq_ok_iff`), unless one
of them names nothing; the fault of the first such entry is reported (`ofEntries_eq_error_iff`).
-/

namespace PathTemplate

namespace Toml

/-! ## Content -/

/-- An empty table. An empty array counts as one where a choice has its content. -/
def Value.IsEmpty : Value → Prop
  | .table _ es => es = []
  | .array items => items = []
  | .tables items => items = []
  | _ => False

def Value.IsScalar : Value → Prop
  | .table _ _ | .array _ | .tables _ => False
  | _ => True

/-- Why a value is not empty. Of arrays, only one that headers build up is called an array. -/
inductive Value.Filled : Value → Fault → Prop
  | table {origin : Origin} {es : Entries} (h : es ≠ []) : Filled (.table origin es) .tableNotEmpty
  | array {items : List Value} (h : items ≠ []) : Filled (.array items) .tableNotEmpty
  | tables {items : List Entries} (h : items ≠ []) : Filled (.tables items) .arrayNotEmpty
  | scalar {v : Value} (h : v.IsScalar) : Filled v (.notTable v)

theorem checkContent_eq_ok_iff {v : Value} : checkContent v = .ok () ↔ v.IsEmpty := by
  cases v with
  | table origin es => cases es <;> simp [checkContent, Value.IsEmpty]
  | array items => cases items <;> simp [checkContent, Value.IsEmpty]
  | tables items => cases items <;> simp [checkContent, Value.IsEmpty]
  | string _ | integer _ | float _ | boolean _ | dateTime => simp [checkContent, Value.IsEmpty]

theorem filled_of_checkContent {v : Value} {c : Fault} (h : checkContent v = .error c) :
    v.Filled c := by
  cases v with
  | table origin es =>
    cases es with
    | nil => cases h
    | cons e es =>
      cases h
      exact .table (List.cons_ne_nil e es)
  | array items =>
    cases items with
    | nil => cases h
    | cons v items =>
      cases h
      exact .array (List.cons_ne_nil v items)
  | tables items =>
    cases items with
    | nil => cases h
    | cons es items =>
      cases h
      exact .tables (List.cons_ne_nil es items)
  | string _ | integer _ | float _ | boolean _ | dateTime =>
    cases h
    exact .scalar trivial

theorem checkContent_of_filled {v : Value} {c : Fault} (h : v.Filled c) :
    checkContent v = .error c := by
  cases h with
  | @table _ es h =>
    cases es with
    | nil => exact absurd rfl h
    | cons _ _ => rfl
  | @array items h =>
    cases items with
    | nil => exact absurd rfl h
    | cons _ _ => rfl
  | @tables items h =>
    cases items with
    | nil => exact absurd rfl h
    | cons _ _ => rfl
  | scalar h => cases v <;> first | rfl | exact absurd h id

/-! ## Choices -/

section Choice

variable {α : Type} [Choice α] (hfind : ∀ a : α, Choice.ofName? α (Choice.name a) = some a)

/-- The value names `a`: as a string, or as the only key of a table, with nothing under it. -/
inductive Names : Value → α → Prop
  | string (a : α) : Names (.string (Choice.name a)) a
  | table (a : α) {origin : Origin} {content : Value} (h : content.IsEmpty) :
      Names (.table origin [(Choice.name a, content)]) a

theorem names_table_iff {origin : Origin} {es : Entries} {a : α} :
    Names (.table origin es) a ↔ ∃ content, es = [(Choice.name a, content)] ∧ content.IsEmpty := by
  constructor
  · intro h
    cases h with
    | table _ h => exact ⟨_, rfl, h⟩
  · rintro ⟨content, rfl, h⟩
    exact .table a h

variable (α) in
/-- Why the value names nothing. -/
inductive Unnamed : Value → Fault → Prop
  | unknownText {name : String} (h : ∀ a : α, name ≠ Choice.name a) :
      Unnamed (.string name) (.unknownName name (Choice.names α))
  | unknownKey {origin : Origin} {name : String} {content : Value}
      (h : ∀ a : α, name ≠ Choice.name a) :
      Unnamed (.table origin [(name, content)]) (.unknownName name (Choice.names α))
  | filled (a : α) {origin : Origin} {content : Value} {c : Fault} (h : content.Filled c) :
      Unnamed (.table origin [(Choice.name a, content)]) c
  | noKey {origin : Origin} : Unnamed (.table origin []) .noKey
  | manyKeys {origin : Origin} {es : Entries} (h : 2 ≤ es.length) :
      Unnamed (.table origin es) .manyKeys
  | notChoice {v : Value} (hstring : ∀ name, v ≠ .string name)
      (htable : ∀ origin es, v ≠ .table origin es) : Unnamed v .notChoice

include hfind

theorem ofName?_eq_some_iff {name : String} {a : α} :
    Choice.ofName? α name = some a ↔ name = Choice.name a := by
  constructor
  · intro h
    have hname := List.find?_some h
    exact (beq_iff_eq.mp hname).symm
  · rintro rfl
    exact hfind a

theorem choiceNamed_eq_ok_iff {name : String} {a : α} :
    choiceNamed α name = .ok a ↔ name = Choice.name a := by
  rw [← ofName?_eq_some_iff hfind, choiceNamed]
  cases Choice.ofName? α name <;> simp

theorem choiceNamed_eq_error_iff {name : String} {c : Fault} :
    choiceNamed α name = .error c ↔
      (∀ a : α, name ≠ Choice.name a) ∧ c = .unknownName name (Choice.names α) := by
  have hnone : Choice.ofName? α name = none ↔ ∀ a : α, name ≠ Choice.name a := by
    rw [Option.eq_none_iff_forall_ne_some]
    exact forall_congr' fun a => not_congr (ofName?_eq_some_iff hfind)
  rw [← hnone, choiceNamed]
  cases Choice.ofName? α name <;> simp [eq_comm]

theorem choice_eq_ok_iff {v : Value} {a : α} : choice α v = .ok a ↔ Names v a := by
  constructor
  · intro h
    unfold choice at h
    split at h
    · obtain rfl := (choiceNamed_eq_ok_iff hfind).mp h
      exact .string a
    · cases h
    · obtain ⟨b, hb, h⟩ := bind_eq_ok_iff.mp h
      obtain ⟨⟨⟩, hcontent, h⟩ := bind_eq_ok_iff.mp h
      obtain rfl := Except.ok.inj h
      obtain rfl := (choiceNamed_eq_ok_iff hfind).mp hb
      exact .table b (checkContent_eq_ok_iff.mp hcontent)
    · cases h
    · cases h
  · intro h
    cases h with
    | string => exact (choiceNamed_eq_ok_iff hfind).mpr rfl
    | table _ h =>
      refine bind_eq_ok_iff.mpr ⟨a, (choiceNamed_eq_ok_iff hfind).mpr rfl, ?_⟩
      exact bind_eq_ok_iff.mpr ⟨(), checkContent_eq_ok_iff.mpr h, rfl⟩

theorem choice_eq_error_iff {v : Value} {c : Fault} :
    choice α v = .error c ↔ Unnamed α v c := by
  constructor
  · intro h
    unfold choice at h
    split at h
    · obtain ⟨hname, rfl⟩ := (choiceNamed_eq_error_iff hfind).mp h
      exact .unknownText hname
    · cases h
      exact .noKey
    · rcases bind_eq_error_iff.mp h with hname | ⟨a, ha, hcontent⟩
      · obtain ⟨hunknown, rfl⟩ := (choiceNamed_eq_error_iff hfind).mp hname
        exact .unknownKey hunknown
      · obtain rfl := (choiceNamed_eq_ok_iff hfind).mp ha
        rcases bind_eq_error_iff.mp hcontent with hcontent | ⟨-, -, hcontent⟩
        · exact .filled a (filled_of_checkContent hcontent)
        · cases hcontent
    · rename_i origin es hnil hsingle
      cases h
      match es, hnil, hsingle with
      | [], hnil, _ => exact absurd rfl hnil
      | [(name, content)], _, hsingle => exact absurd rfl (hsingle name content)
      | _ :: _ :: _, _, _ => exact .manyKeys (by simp)
    · rename_i hstring _ _ htable
      cases h
      exact .notChoice hstring htable
  · intro h
    cases h with
    | unknownText hname => exact (choiceNamed_eq_error_iff hfind).mpr ⟨hname, rfl⟩
    | unknownKey hname =>
      exact bind_eq_error_iff.mpr (Or.inl ((choiceNamed_eq_error_iff hfind).mpr ⟨hname, rfl⟩))
    | filled a h =>
      refine bind_eq_error_iff.mpr (Or.inr ⟨a, (choiceNamed_eq_ok_iff hfind).mpr rfl, ?_⟩)
      exact bind_eq_error_iff.mpr (Or.inl (checkContent_of_filled h))
    | noKey => rfl
    | @manyKeys origin es h =>
      match es, h with
      | _ :: _ :: _, _ => rfl
    | notChoice hstring htable =>
      cases v with
      | string name => exact absurd rfl (hstring name)
      | table origin es => exact absurd rfl (htable origin es)
      | integer _ | float _ | boolean _ | dateTime | array _ | tables _ => rfl

end Choice

end Toml

/-! ## Entries -/

namespace Options

open Toml

/-- A setting is what the value names, or the default where there is no value. -/
def SettingIs {α : Type} [Choice α] (default : α) : Option Value → α → Prop
  | none, a => a = default
  | some v, a => Names v a

/-- Why an entry is no setting, though its key says so. -/
def EntryFault (entry : String × Value) (c : Fault) : Prop :=
  entry.1 = decodingKey ∧ Unnamed Decoding entry.2 c ∨
    entry.1 = leadsKey ∧ Unnamed LeadRule entry.2 c

theorem decodingKey_ne_leadsKey : decodingKey ≠ leadsKey := by decide

theorem withEntry_decoding {o o' : Options} {v : Value} :
    o.withEntry (decodingKey, v) = .ok o' ↔
      ∃ d, Names v d ∧ { o with decoding := d } = o' := by
  simp [withEntry, bind_eq_ok_iff, choice_eq_ok_iff Decoding.ofName?_name, pure, Except.pure]

theorem withEntry_leads {o o' : Options} {v : Value} :
    o.withEntry (leadsKey, v) = .ok o' ↔ ∃ r, Names v r ∧ { o with leads := r } = o' := by
  simp [withEntry, bind_eq_ok_iff, choice_eq_ok_iff LeadRule.ofName?_name, pure, Except.pure,
    decodingKey_ne_leadsKey.symm]

theorem withEntry_other {o : Options} {entry : String × Value} (hd : entry.1 ≠ decodingKey)
    (hl : entry.1 ≠ leadsKey) : o.withEntry entry = .ok o := by
  simp [withEntry, hd, hl]

theorem withEntry_eq_error_iff {o : Options} {entry : String × Value} {c : Fault} :
    o.withEntry entry = .error c ↔ EntryFault entry c := by
  unfold withEntry EntryFault
  by_cases hd : entry.1 = decodingKey
  · simp [hd, decodingKey_ne_leadsKey, bind_eq_error_iff,
      choice_eq_error_iff Decoding.ofName?_name, pure, Except.pure]
  · by_cases hl : entry.1 = leadsKey
    · simp [hl, decodingKey_ne_leadsKey.symm, bind_eq_error_iff,
        choice_eq_error_iff LeadRule.ofName?_name, pure, Except.pure]
    · simp [hd, hl]

/-- Each setting is read from its own entry, whatever the entries around it. -/
theorem foldlM_withEntry_eq_ok_iff {es : Entries} (hkeys : (es.map Prod.fst).Nodup)
    {o o' : Options} :
    es.foldlM withEntry o = .ok o' ↔
      SettingIs o.decoding (es.lookup decodingKey) o'.decoding ∧
        SettingIs o.leads (es.lookup leadsKey) o'.leads := by
  induction es generalizing o with
  | nil =>
    obtain ⟨d, r⟩ := o
    obtain ⟨d', r'⟩ := o'
    simp [SettingIs, pure, Except.pure, eq_comm]
  | cons e es ih =>
    obtain ⟨key, v⟩ := e
    rw [List.map_cons, List.nodup_cons] at hkeys
    obtain ⟨hkey, hkeys⟩ := hkeys
    rw [List.foldlM_cons, bind_eq_ok_iff]
    simp only [ih hkeys]
    by_cases hd : key = decodingKey
    · subst hd
      have hl : (leadsKey == decodingKey) = false := rfl
      -- The key does not come again, so nothing after this entry changes the setting.
      have hnone : es.lookup decodingKey = none := lookup_eq_none_iff_not_mem.mpr hkey
      simp only [withEntry_decoding, List.lookup_cons_self, List.lookup_cons, hl, hnone, SettingIs]
      constructor
      · rintro ⟨_, ⟨d, hv, rfl⟩, rfl, hleads⟩
        exact ⟨hv, hleads⟩
      · rintro ⟨hv, hleads⟩
        exact ⟨_, ⟨o'.decoding, hv, rfl⟩, rfl, hleads⟩
    · by_cases hl : key = leadsKey
      · subst hl
        have hd : (decodingKey == leadsKey) = false := rfl
        have hnone : es.lookup leadsKey = none := lookup_eq_none_iff_not_mem.mpr hkey
        simp only [withEntry_leads, List.lookup_cons_self, List.lookup_cons, hd, hnone, SettingIs]
        constructor
        · rintro ⟨_, ⟨r, hv, rfl⟩, hdecoding, rfl⟩
          exact ⟨hdecoding, hv⟩
        · rintro ⟨hdecoding, hv⟩
          exact ⟨_, ⟨o'.leads, hv, rfl⟩, hdecoding, rfl⟩
      · have hother : o.withEntry (key, v) = .ok o := withEntry_other hd hl
        simp [hother, List.lookup_cons, beq_eq_false_iff_ne.mpr (Ne.symm hd),
          beq_eq_false_iff_ne.mpr (Ne.symm hl)]

theorem ofEntries_eq_ok_iff {es : Entries} (hkeys : (es.map Prod.fst).Nodup) {o : Options} :
    ofEntries es = .ok o ↔
      SettingIs .percent (es.lookup decodingKey) o.decoding ∧
        SettingIs .lenient (es.lookup leadsKey) o.leads :=
  foldlM_withEntry_eq_ok_iff hkeys

/-! ## Faults -/

/-- The first entry at fault, and why it is. -/
def FirstFault (es : Entries) (c : Fault) : Prop :=
  ∃ front entry back, es = front ++ entry :: back ∧ (∀ e ∈ front, ∀ c', ¬ EntryFault e c') ∧
    EntryFault entry c

theorem exists_foldlM_withEntry_iff {es : Entries} {o : Options} :
    (∃ o', es.foldlM withEntry o = .ok o') ↔ ∀ e ∈ es, ∀ c, ¬ EntryFault e c := by
  induction es generalizing o with
  | nil => simp [pure, Except.pure]
  | cons e es ih =>
    have hstep : (∃ o', o.withEntry e = .ok o') ↔ ∀ c, ¬ EntryFault e c := by
      rw [exists_ok_iff]
      exact forall_congr' fun c => not_congr withEntry_eq_error_iff
    rw [List.forall_mem_cons, ← hstep, List.foldlM_cons]
    simp only [bind_eq_ok_iff]
    constructor
    · rintro ⟨o', o₁, hfirst, hrest⟩
      exact ⟨⟨o₁, hfirst⟩, ih.mp ⟨o', hrest⟩⟩
    · rintro ⟨⟨o₁, hfirst⟩, hrest⟩
      obtain ⟨o', hrest⟩ := ih.mpr hrest
      exact ⟨o', o₁, hfirst, hrest⟩

/-- **The first fault is reported.** -/
theorem ofEntries_eq_error_iff {es : Entries} {c : Fault} :
    ofEntries es = .error c ↔ FirstFault es c := by
  rw [ofEntries, foldlM_eq_error_iff]
  simp only [withEntry_eq_error_iff]
  constructor
  · rintro ⟨front, entry, back, o, rfl, hfront, hentry⟩
    exact ⟨front, entry, back, rfl, exists_foldlM_withEntry_iff.mp ⟨o, hfront⟩, hentry⟩
  · rintro ⟨front, entry, back, rfl, hfront, hentry⟩
    obtain ⟨o, ho⟩ := exists_foldlM_withEntry_iff.mpr hfront
    exact ⟨front, entry, back, o, rfl, ho, hentry⟩

/-! ## Values -/

/-- The entries that give settings. An array gives them in their order, and a date or time is a
table without any. -/
def settings? : Value → Option Entries
  | .table _ es => some es
  | .array items => some ([decodingKey, leadsKey].zip items)
  | .tables items => some ([decodingKey, leadsKey].zip (items.map (.table .header)))
  | .dateTime => some []
  | _ => none

/-- The value sets the options: what it leaves out takes its default. -/
def Sets (v : Value) (o : Options) : Prop :=
  ∃ es, settings? v = some es ∧ SettingIs .percent (es.lookup decodingKey) o.decoding ∧
    SettingIs .lenient (es.lookup leadsKey) o.leads

/-- Why the value sets no options. -/
def Refused (v : Value) (c : Fault) : Prop :=
  match settings? v with
  | some es => FirstFault es c
  | none => c = .notOptions v

theorem ofToml_eq_ofEntries {v : Value} {es : Entries} (h : settings? v = some es) :
    ofToml v = ofEntries es := by
  cases v <;> cases h <;> rfl

theorem ofToml_eq_error {v : Value} (h : settings? v = none) :
    ofToml v = .error (.notOptions v) := by
  cases v <;> first | rfl | cases h

theorem nodup_zip_settings (items : List Value) :
    (([decodingKey, leadsKey].zip items).map Prod.fst).Nodup := by
  match items with
  | [] => simp
  | [_] => simp
  | _ :: _ :: _ => simp [decodingKey_ne_leadsKey]

theorem nodup_of_settings? {v : Value} {es : Entries} (hv : v.Distinct)
    (h : settings? v = some es) : (es.map Prod.fst).Nodup := by
  cases hv with
  | table hes =>
    cases h
    exact hes.keys
  | array =>
    cases h
    exact nodup_zip_settings _
  | tables =>
    cases h
    exact nodup_zip_settings _
  | dateTime =>
    cases h
    exact List.nodup_nil
  | string _ | integer _ | float _ | boolean _ => cases h

theorem ofToml_eq_ok_iff {v : Value} (hv : v.Distinct) {o : Options} :
    ofToml v = .ok o ↔ Sets v o := by
  unfold Sets
  cases h : settings? v with
  | none => simp [ofToml_eq_error h]
  | some es =>
    rw [ofToml_eq_ofEntries h, ofEntries_eq_ok_iff (nodup_of_settings? hv h)]
    simp

theorem ofToml_eq_error_iff {v : Value} {c : Fault} : ofToml v = .error c ↔ Refused v c := by
  unfold Refused
  cases h : settings? v with
  | none => simp [ofToml_eq_error h, eq_comm]
  | some es => rw [ofToml_eq_ofEntries h, ofEntries_eq_error_iff]

end Options
end PathTemplate
