import Mathlib.Data.Option.Basic
import PathTemplate.Proofs.Entries
import PathTemplate.Toml.Document

/-!
No table of a document has two entries under one key, at any depth (`parse_distinct`). Each step
that adds to a table keeps its keys distinct (`KeepsDistinct`), and the values that readers make are
distinct inside (`yields_value`).
-/

namespace PathTemplate.Toml

mutual

/-- No table in the value has two entries under one key. -/
inductive Value.Distinct : Value → Prop
  | string (s : String) : Value.Distinct (.string s)
  | integer (i : Int) : Value.Distinct (.integer i)
  | float (x : Binary64) : Value.Distinct (.float x)
  | boolean (b : Bool) : Value.Distinct (.boolean b)
  | dateTime : Value.Distinct .dateTime
  | array {items : List Value} (hitems : ∀ v ∈ items, Value.Distinct v) :
      Value.Distinct (.array items)
  | table {origin : Origin} {es : Entries} (hes : Entries.Distinct es) :
      Value.Distinct (.table origin es)
  | tables {items : List Entries} (hitems : ∀ es ∈ items, Entries.Distinct es) :
      Value.Distinct (.tables items)

/-- No two entries stand under one key, nor do they in any table inside. -/
inductive Entries.Distinct : Entries → Prop
  | mk {es : Entries} (keys : (es.map Prod.fst).Nodup)
      (values : ∀ e ∈ es, Value.Distinct e.2) : Entries.Distinct es

end

section Steps

variable {α β : Type} {x : Option α} {b : β}

theorem exists_of_bind_pure {f : α → β} (h : (x >>= fun a => pure (f a)) = some b) :
    ∃ a, x = some a ∧ f a = b := by
  simpa [Option.bind_eq_some_iff] using h

theorem eq_of_guard_bind {p : Prop} [Decidable p] {y : Option β}
    (h : (guard p >>= fun _ => y) = some b) : y = some b := by
  obtain ⟨-, -, hy⟩ := Option.bind_eq_some_iff.mp h
  exact hy

/-- What each step keeps holds at the end. -/
theorem foldlM_invariant {f : β → α → Option β} {P : β → Prop} {items : List α} {b' : β}
    (hstep : ∀ b, P b → ∀ a ∈ items, ∀ b', f b a = some b' → P b') (hb : P b)
    (h : items.foldlM f b = some b') : P b' := by
  induction items generalizing b with
  | nil =>
    obtain rfl := Option.some.inj h
    exact hb
  | cons a items ih =>
    rw [List.foldlM_cons] at h
    obtain ⟨mid, hmid, h⟩ := Option.bind_eq_some_iff.mp h
    exact ih (fun b hb a ha => hstep b hb a (List.mem_cons_of_mem _ ha))
      (hstep b hb a List.mem_cons_self mid hmid) h

end Steps

namespace Entries

variable {es es' : Entries} {key : String} {v : Value} {edit : Entries → Option Entries}

theorem Distinct.keys (h : Distinct es) : (es.map Prod.fst).Nodup := by
  cases h with
  | mk keys _ => exact keys

theorem Distinct.values (h : Distinct es) : ∀ e ∈ es, e.2.Distinct := by
  cases h with
  | mk _ values => exact values

theorem Distinct.of_lookup (h : Distinct es) (hv : es.lookup key = some v) : v.Distinct :=
  h.values _ (mem_of_lookup hv)

theorem distinct_nil : Distinct [] := .mk List.nodup_nil (by simp)

theorem Distinct.concat (h : Distinct es) (hkey : es.lookup key = none) (hv : v.Distinct) :
    Distinct (es ++ [(key, v)]) := by
  refine .mk ?_ ?_
  · rw [List.map_append, List.map_singleton, ← List.concat_eq_append]
    exact h.keys.concat (lookup_eq_none_iff_not_mem.mp hkey)
  · intro e he
    rw [List.mem_append, List.mem_singleton] at he
    rcases he with he | rfl
    · exact h.values e he
    · exact hv

theorem Distinct.filter (h : Distinct es) (p : String × Value → Bool) : Distinct (es.filter p) :=
  .mk ((List.filter_sublist.map Prod.fst).nodup h.keys)
    fun e he => h.values e (List.mem_of_mem_filter he)

theorem map_fst_replace (key : String) (v : Value) (es : Entries) :
    (replace key v es).map Prod.fst = es.map Prod.fst := by
  rw [replace, List.map_map]
  refine List.map_congr_left fun e _ => ?_
  by_cases h : e.1 = key <;> simp [h]

theorem Distinct.replace (h : Distinct es) (hv : v.Distinct) : Distinct (replace key v es) := by
  refine .mk ?_ ?_
  · rw [map_fst_replace]
    exact h.keys
  · intro e he
    obtain ⟨e, hmem, rfl⟩ := List.mem_map.mp he
    by_cases hk : e.1 = key
    · simpa [hk] using hv
    · simpa [hk] using h.values e hmem

/-! ## Editing tables -/

/-- The edit makes no two entries under one key. -/
def KeepsDistinct (edit : Entries → Option Entries) : Prop :=
  ∀ es es', Distinct es → edit es = some es' → Distinct es'

theorem KeepsDistinct.atLast (hedit : KeepsDistinct edit) {items items' : List Entries}
    (hitems : ∀ es ∈ items, Distinct es) (h : atLast edit items = some items') :
    ∀ es ∈ items', Distinct es := by
  obtain ⟨last, hlast, h⟩ := Option.bind_eq_some_iff.mp h
  obtain ⟨last', hlast', rfl⟩ := exists_of_bind_pure h
  intro es hes
  rw [List.mem_append, List.mem_singleton] at hes
  rcases hes with hes | rfl
  · exact hitems es (List.dropLast_subset items hes)
  · exact hedit last es (hitems last (List.mem_of_getLast? hlast)) hlast'

theorem KeepsDistinct.atPath (hedit : KeepsDistinct edit) (path : List String) :
    KeepsDistinct (atPath edit path) := by
  induction path with
  | nil => exact hedit
  | cons k path ih =>
    intro es es' hes h
    unfold Entries.atPath at h
    split at h
    · rename_i hnone
      obtain ⟨sub, hsub, rfl⟩ := exists_of_bind_pure h
      exact hes.concat hnone (.table (ih _ _ distinct_nil hsub))
    · cases h
    · rename_i hk
      obtain ⟨sub', hsub', rfl⟩ := exists_of_bind_pure h
      cases hes.of_lookup hk with
      | table hsub => exact hes.replace (.table (ih _ _ hsub hsub'))
    · rename_i hk
      obtain ⟨items', hitems', rfl⟩ := exists_of_bind_pure h
      cases hes.of_lookup hk with
      | tables hitems => exact hes.replace (.tables (ih.atLast hitems hitems'))
    · cases h

theorem keepsDistinct_define (key : String) (hv : v.Distinct) (path : List String) :
    KeepsDistinct (define key v path) := by
  induction path with
  | nil =>
    intro es es' hes h
    unfold define at h
    split at h
    · cases h
    · rename_i hkey
      obtain rfl := Option.some.inj h
      exact hes.concat (Option.not_isSome_iff_eq_none.mp hkey) hv
  | cons k path ih =>
    intro es es' hes h
    unfold define at h
    split at h
    · rename_i hnone
      obtain ⟨sub, hsub, rfl⟩ := exists_of_bind_pure h
      exact hes.concat hnone (.table (ih _ _ distinct_nil hsub))
    · rename_i hk
      obtain ⟨sub', hsub', rfl⟩ := exists_of_bind_pure h
      cases hes.of_lookup hk with
      | table hsub => exact hes.replace (.table (ih _ _ hsub hsub'))
    · rename_i hk
      obtain ⟨sub', hsub', rfl⟩ := exists_of_bind_pure (eq_of_guard_bind h)
      cases hes.of_lookup hk with
      | table hsub => exact hes.replace (.table (ih _ _ hsub hsub'))
    · rename_i hk
      obtain ⟨items', hitems', rfl⟩ := exists_of_bind_pure (eq_of_guard_bind h)
      cases hes.of_lookup hk with
      | tables hitems => exact hes.replace (.tables (ih.atLast hitems hitems'))
    · cases h

theorem keepsDistinct_openTable (key : String) : KeepsDistinct (openTable key) := by
  intro es es' hes h
  unfold openTable at h
  split at h
  · rename_i hnone
    obtain rfl := Option.some.inj h
    exact hes.concat hnone (.table distinct_nil)
  · rename_i hk
    obtain rfl := Option.some.inj h
    -- The table moves to the end, and its old place goes.
    refine (hes.filter _).concat ?_ ?_
    · rw [lookup_eq_none_iff_not_mem]
      simp
    · cases hes.of_lookup hk with
      | table hsub => exact .table hsub
  · cases h

theorem keepsDistinct_openElement (key : String) : KeepsDistinct (openElement key) := by
  intro es es' hes h
  unfold openElement at h
  split at h
  · rename_i hnone
    obtain rfl := Option.some.inj h
    exact hes.concat hnone (.tables (by simpa using distinct_nil))
  · rename_i items hk
    obtain rfl := Option.some.inj h
    cases hes.of_lookup hk with
    | tables hitems =>
      refine hes.replace (.tables fun es hes => ?_)
      rw [List.mem_append, List.mem_singleton] at hes
      rcases hes with hes | rfl
      · exact hitems es hes
      · exact distinct_nil
  · cases h

theorem distinct_of_defineAll {bindings : List ((List String × String) × Value)}
    (hvalues : ∀ b ∈ bindings, b.2.Distinct) (hes : es.Distinct)
    (h : defineAll bindings es = some es') : es'.Distinct := by
  refine foldlM_invariant (P := Distinct) ?_ hes h
  intro es hes b hb es'
  exact keepsDistinct_define b.1.2 (hvalues b hb) b.1.1 es es' hes

end Entries

/-! ## Readers -/

/-- All that the reader answers has the property. -/
def Yields {α : Type} (r : Reader α) (p : α → Prop) : Prop :=
  ∀ cs a rest, r.run cs = some (a, rest) → p a

namespace Yields

variable {α β : Type} {r r' : Reader α} {f : α → Reader β} {p : α → Prop} {q : β → Prop}

theorem pure {a : α} (h : p a) : Yields (pure a : Reader α) p := by
  intro cs b rest hb
  cases hb
  exact h

theorem failure : Yields (failure : Reader α) p := by
  intro cs a rest h
  cases h

theorem of_forall (h : ∀ a, p a) : Yields r p := fun _ a _ _ => h a

theorem mono {p' : α → Prop} (hr : Yields r p) (h : ∀ a, p a → p' a) : Yields r p' :=
  fun cs a rest ha => h a (hr cs a rest ha)

theorem bind (hr : Yields r p) (hf : ∀ a, p a → Yields (f a) q) : Yields (r >>= f) q := by
  intro cs b rest h
  rw [StateT.run_bind] at h
  obtain ⟨⟨a, left⟩, ha, hb⟩ := Option.bind_eq_some_iff.mp h
  exact hf a (hr cs a left ha) left b rest hb

/-- Where nothing is known of the first answer. -/
theorem skip (hf : ∀ a, Yields (f a) q) : Yields (r >>= f) q :=
  bind (of_forall fun _ => trivial) fun a _ => hf a

theorem map {g : α → β} (hr : Yields r fun a => q (g a)) : Yields (g <$> r) q := by
  rw [← bind_pure_comp]
  exact bind hr fun a ha => pure ha

theorem seqRight {s : Reader β} (hs : Yields s q) : Yields (r *> s) q :=
  skip fun _ => hs

theorem orElse (hr : Yields r p) (hr' : Yields r' p) : Yields (r <|> r') p := by
  intro cs a rest h
  change (r.run cs <|> r'.run cs) = some (a, rest) at h
  cases hc : r.run cs with
  | none =>
    rw [hc] at h
    exact hr' cs a rest h
  | some answer =>
    rw [hc] at h
    obtain rfl := Option.some.inj h
    exact hr cs a rest hc

theorem liftM {x : Option α} (h : ∀ a, x = some a → p a) : Yields (liftM x : Reader α) p := by
  intro cs a rest ha
  obtain ⟨b, hb, heq⟩ := Option.bind_eq_some_iff.mp ha
  cases heq
  exact h a hb

theorem rounds {r : Reader (Option α)} (hr : Yields r fun o => ∀ a ∈ o, p a) (n : Nat) :
    Yields (Reader.rounds r n) fun items => ∀ a ∈ items, p a := by
  induction n with
  | zero => exact failure
  | succ n ih =>
    refine bind hr fun o ho => ?_
    cases o with
    | none => exact pure (by simp)
    | some a =>
      refine bind ih fun items hitems => pure ?_
      simpa using ⟨ho a rfl, hitems⟩

theorem untilNone {r : Reader (Option α)} (hr : Yields r fun o => ∀ a ∈ o, p a) :
    Yields (Reader.untilNone r) fun items => ∀ a ∈ items, p a := by
  intro cs
  exact rounds hr (cs.length + 1) cs

end Yields

/-! ## Values -/

theorem yields_ranged (i : Int) : Yields (ranged i) Value.Distinct :=
  .skip fun _ => .pure (.integer i)

theorem yields_specialFloat : Yields specialFloat Value.Distinct :=
  .skip fun _ => .orElse (.seqRight (.pure (.float _))) (.seqRight (.pure (.float _)))

theorem yields_decimalFloat : Yields decimalFloat Value.Distinct := by
  refine .skip fun _ => .skip fun _ => .skip fun _ => ?_
  extract_lets finish
  have hfinish : ∀ scale, Yields (finish scale) Value.Distinct :=
    fun _ => .skip fun _ => .pure (.float _)
  split
  · exact .skip hfinish
  · exact .skip hfinish

theorem yields_basedInteger : Yields basedInteger Value.Distinct := by
  refine .skip fun _ => .skip fun c => ?_
  split
  · exact .skip fun _ => yields_ranged _
  · exact .skip fun _ => yields_ranged _
  · exact .skip fun _ => yields_ranged _
  · exact .failure

theorem yields_decimalInteger : Yields decimalInteger Value.Distinct :=
  .skip fun _ => .skip fun _ => yields_ranged _

theorem yields_number : Yields number Value.Distinct :=
  .orElse yields_specialFloat
    (.orElse yields_decimalFloat (.orElse yields_basedInteger yields_decimalInteger))

theorem yields_word : Yields word Value.Distinct :=
  .orElse (.seqRight (.pure (.boolean true))) (.seqRight (.pure (.boolean false)))

theorem yields_text : Yields (Value.string <$> (blockText <|> lineText)) Value.Distinct :=
  .map (.of_forall Value.Distinct.string)

theorem yields_scalarValue : Yields scalarValue Value.Distinct :=
  .orElse yields_text (.orElse yields_word (.orElse (.seqRight (.pure .dateTime)) yields_number))

section Nested

variable {r : Reader Value} (hr : Yields r Value.Distinct)

include hr

theorem yields_arrayBody : Yields (arrayBody r) fun items => ∀ v ∈ items, v.Distinct := by
  refine .skip fun _ => .bind (.untilNone (.skip fun c => ?_)) fun items hitems =>
    .skip fun _ => .pure hitems
  split
  · exact .pure (by simp)
  · refine .bind hr fun v hv => .skip fun _ => .skip fun c => ?_
    split
    · exact .skip fun _ => .pure (by simpa using hv)
    · exact .pure (by simpa using hv)

theorem yields_binding : Yields (binding r) fun b => b.2.Distinct :=
  .skip fun _ => .skip fun _ => .skip fun _ => .bind hr fun _ hv => .skip fun _ => .pure hv

theorem yields_braceBody : Yields (braceBody r) Entries.Distinct := by
  refine .skip fun _ => .bind (p := fun bindings => ∀ b ∈ bindings, b.2.Distinct) ?_
    fun bindings hbindings => .skip fun _ => .liftM fun es hes =>
      Entries.distinct_of_defineAll hbindings Entries.distinct_nil hes
  refine .skip fun c => ?_
  split
  · exact .pure (by simp)
  · refine .bind (yields_binding hr) fun first hfirst => .bind
      (.untilNone (p := fun b => b.2.Distinct) (.skip fun c => ?_)) fun more hmore => .pure ?_
    · split
      · exact .pure (by simp)
      · exact .skip fun _ => .map (.mono (yields_binding hr) fun b hb => by simpa using hb)
    · exact List.forall_mem_cons.mpr ⟨hfirst, hmore⟩

end Nested

theorem yields_value (depth : Nat) : Yields (value depth) Value.Distinct := by
  induction depth with
  | zero => exact yields_scalarValue
  | succ depth ih =>
    refine .skip fun c => ?_
    split
    · exact .seqRight (.map (.mono (yields_arrayBody ih) fun _ => .array))
    · exact .seqRight (.map (.mono (yields_braceBody ih) fun _ => .table))
    · exact yields_scalarValue

/-! ## Documents -/

/-- What a statement puts into the document is distinct inside. -/
def Statement.Distinct : Statement → Prop
  | .define _ _ v => v.Distinct
  | .openTable _ _ | .openElement _ _ => True

theorem yields_headerLine : Yields headerLine Statement.Distinct := by
  refine .skip fun _ => .skip fun c => ?_
  split
  · exact .skip fun _ => .skip fun _ => .skip fun _ => .pure trivial
  · exact .skip fun _ => .skip fun _ => .pure trivial

theorem yields_bindingLine : Yields bindingLine Statement.Distinct :=
  .bind (yields_binding (yields_value maxDepth)) fun _ hb => .pure hb

theorem yields_statements : Yields statements fun lines => ∀ s ∈ lines, s.Distinct := by
  refine .skip fun _ => .skip fun _ => .untilNone (.skip fun c => ?_)
  split
  · exact .pure (by simp)
  · exact .seqRight (.pure (by simp))
  · extract_lets finish
    have hfinish : ∀ s, s.Distinct → Yields (finish s) fun o => ∀ s ∈ o, s.Distinct :=
      fun s hs => .skip fun _ => .skip fun _ => .pure fun _ h => Option.some.inj h ▸ hs
    split
    · exact .bind yields_headerLine hfinish
    · exact .bind yields_bindingLine hfinish

theorem distinct_of_add {d d' : Draft} {s : Statement} (hs : s.Distinct)
    (hd : d.entries.Distinct) (h : d.add s = some d') : d'.entries.Distinct := by
  cases s with
  | define path key v =>
    obtain ⟨es, hes, rfl⟩ := exists_of_bind_pure h
    exact (Entries.keepsDistinct_define key hs path).atPath d.table _ _ hd hes
  | openTable path key =>
    obtain ⟨es, hes, rfl⟩ := exists_of_bind_pure h
    exact (Entries.keepsDistinct_openTable key).atPath path _ _ hd hes
  | openElement path key =>
    obtain ⟨es, hes, rfl⟩ := exists_of_bind_pure h
    exact (Entries.keepsDistinct_openElement key).atPath path _ _ hd hes

/-- **Keys are distinct** in all tables of a document. -/
theorem parse_distinct {text : String} {es : Entries} (h : parse text = some es) :
    es.Distinct := by
  obtain ⟨⟨lines, rest⟩, hlines, h⟩ := Option.bind_eq_some_iff.mp h
  obtain ⟨draft, hdraft, rfl⟩ := exists_of_bind_pure h
  exact foldlM_invariant (P := fun d => d.entries.Distinct)
    (fun d hd s hs d' => distinct_of_add (yields_statements _ _ _ hlines s hs) hd)
    Entries.distinct_nil hdraft

end PathTemplate.Toml
