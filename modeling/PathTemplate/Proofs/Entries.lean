import Mathlib.Data.List.Nodup

/-!
Lists of values under names, and readers that take them one after the other. Where each name occurs
once, looking it up finds the entry under it (`lookup_eq_some_iff_mem`). A reader that goes through
a list fails with the first fault that it comes to (`foldlM_eq_error_iff`).
-/

namespace PathTemplate

/-! ## Looking up -/

section Lookup

variable {β : Type} {es : List (String × β)} {key : String} {v : β}

theorem lookup_eq_none_iff_not_mem : es.lookup key = none ↔ key ∉ es.map Prod.fst := by
  rw [List.lookup_eq_none_iff]
  simp only [bne_iff_ne, List.mem_map, not_exists, not_and]
  exact forall₂_congr fun e _ => ne_comm

theorem mem_of_lookup (h : es.lookup key = some v) : (key, v) ∈ es := by
  obtain ⟨front, back, rfl, -⟩ := List.lookup_eq_some_iff.mp h
  simp

theorem eq_of_mem_of_mem (hkeys : (es.map Prod.fst).Nodup) {w : β} (hv : (key, v) ∈ es)
    (hw : (key, w) ∈ es) : v = w :=
  congrArg Prod.snd (List.inj_on_of_nodup_map hkeys hv hw rfl)

/-- **Lookup is membership.** -/
theorem lookup_eq_some_iff_mem (hkeys : (es.map Prod.fst).Nodup) :
    es.lookup key = some v ↔ (key, v) ∈ es := by
  refine ⟨mem_of_lookup, fun hv => ?_⟩
  cases h : es.lookup key with
  | none => exact absurd (List.mem_map_of_mem hv) (lookup_eq_none_iff_not_mem.mp h)
  | some w => rw [eq_of_mem_of_mem hkeys hv (mem_of_lookup h)]

/-- Lookup does not depend on the order. -/
theorem lookup_eq_of_perm {es' : List (String × β)} (horder : es.Perm es')
    (hkeys : (es.map Prod.fst).Nodup) : es.lookup key = es'.lookup key := by
  have hkeys' : (es'.map Prod.fst).Nodup := (horder.map Prod.fst).nodup hkeys
  ext v
  rw [lookup_eq_some_iff_mem hkeys, lookup_eq_some_iff_mem hkeys', horder.mem_iff]

end Lookup

/-! ## Reading one after the other -/

section Reading

variable {ε α β : Type} {c : ε}

theorem exists_ok_iff {x : Except ε α} : (∃ a, x = .ok a) ↔ ∀ c, x ≠ .error c := by
  cases x <;> simp

theorem bind_eq_ok_iff {x : Except ε α} {f : α → Except ε β} {b : β} :
    (x >>= f) = .ok b ↔ ∃ a, x = .ok a ∧ f a = .ok b := by
  cases x <;> simp [bind, Except.bind]

theorem map_eq_ok_iff {x : Except ε α} {f : α → β} {b : β} :
    f <$> x = .ok b ↔ ∃ a, x = .ok a ∧ f a = b := by
  cases x <;> simp [Functor.map, Except.map]

theorem bind_eq_error_iff {x : Except ε α} {f : α → Except ε β} :
    (x >>= f) = .error c ↔ x = .error c ∨ ∃ a, x = .ok a ∧ f a = .error c := by
  cases x <;> simp [bind, Except.bind]

theorem mapError_eq_ok_iff {ε' : Type} {x : Except ε α} {f : ε → ε'} {a : α} :
    x.mapError f = .ok a ↔ x = .ok a := by
  cases x <;> simp [Except.mapError]

theorem mapError_eq_error_iff {ε' : Type} {x : Except ε α} {f : ε → ε'} {fault : ε'} :
    x.mapError f = .error fault ↔ ∃ c, fault = f c ∧ x = .error c := by
  cases x <;> simp [Except.mapError, eq_comm]

/-- **The first fault counts.** -/
theorem foldlM_eq_error_iff {f : β → α → Except ε β} {items : List α} {b : β} :
    items.foldlM f b = .error c ↔
      ∃ front item back b', items = front ++ item :: back ∧ front.foldlM f b = .ok b' ∧
        f b' item = .error c := by
  induction items generalizing b with
  | nil =>
    simp [pure, Except.pure]
  | cons first items ih =>
    rw [List.foldlM_cons, bind_eq_error_iff]
    constructor
    · rintro (h | ⟨b', hb', h⟩)
      · exact ⟨[], first, items, b, rfl, rfl, h⟩
      · obtain ⟨front, item, back, b'', rfl, hfront, hitem⟩ := ih.mp h
        refine ⟨first :: front, item, back, b'', rfl, ?_, hitem⟩
        rw [List.foldlM_cons, bind_eq_ok_iff]
        exact ⟨b', hb', hfront⟩
    · rintro ⟨front, item, back, b'', heq, hfront, hitem⟩
      cases front with
      | nil =>
        obtain ⟨rfl, rfl⟩ := List.cons.inj heq
        cases hfront
        exact Or.inl hitem
      | cons e front =>
        obtain ⟨rfl, rfl⟩ := List.cons.inj heq
        rw [List.foldlM_cons, bind_eq_ok_iff] at hfront
        obtain ⟨b', hb', hfront⟩ := hfront
        exact Or.inr ⟨b', hb', ih.mpr ⟨front, item, back, b'', rfl, hfront, hitem⟩⟩

end Reading

end PathTemplate
