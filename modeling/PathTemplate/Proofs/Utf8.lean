import PathTemplate.Proofs.Decoding

/-!
The reader takes UTF-8 and nothing else. What it reads between two positions at which no character
is pending is the UTF-8 of one character (`readsOff_of_readFrom`): the range that a
lead octet sets for the octet after it keeps out numbers that a shorter form writes, and numbers
that are no characters. So the octets that read as a text are its UTF-8 (`read_eq_ok_iff`).
-/

namespace PathTemplate.Text.Utf8

/-! ## Lead and tail octets -/

theorem lead?_range {b : UInt8} {p : Pending} (h : lead? b = some p) :
    0xC2 ≤ b.toNat ∧ b.toNat ≤ 0xF4 := by
  simp only [lead?, UInt8.lt_iff_toNat_lt, UInt8.le_iff_toNat_le, ← UInt8.toNat_inj,
    UInt8.reduceToNat] at h
  grind

/-- A lead octet is that of a character of two, three or four octets. -/
theorem lead?_cases {b : UInt8} {p : Pending} (h : lead? b = some p) :
    (∃ x, 2 ≤ x ∧ x < 32 ∧ b = UInt8.ofNat (x + 192)) ∨
      (∃ x < 16, b = UInt8.ofNat (x + 224)) ∨ ∃ x < 5, b = UInt8.ofNat (x + 240) := by
  obtain ⟨hmin, hmax⟩ := lead?_range h
  by_cases htwo : b.toNat < 224
  · refine Or.inl ⟨b.toNat - 192, by omega, by omega, ?_⟩
    rw [Nat.sub_add_cancel (by omega), UInt8.ofNat_toNat]
  by_cases hthree : b.toNat < 240
  · refine Or.inr (Or.inl ⟨b.toNat - 224, by omega, ?_⟩)
    rw [Nat.sub_add_cancel (by omega), UInt8.ofNat_toNat]
  · refine Or.inr (Or.inr ⟨b.toNat - 240, by omega, ?_⟩)
    rw [Nat.sub_add_cancel (by omega), UInt8.ofNat_toNat]

theorem tail_congr {m n : Nat} (h : m % 64 = n % 64) : tail m = tail n := by
  rw [tail, tail, h]

theorem exists_tail {b : UInt8} (hlow : 0x80 ≤ b.toNat) (hhigh : b.toNat ≤ 0xBF) :
    ∃ n < 64, b = tail n := by
  refine ⟨b.toNat - 128, by omega, ?_⟩
  rw [tail, Nat.mod_eq_of_lt (by omega), Nat.sub_add_cancel hlow, UInt8.ofNat_toNat]

/-- An octet of the lower half stands for a character of its own. -/
theorem toNat_eq_of_mem_utf8EncodeChar {c : Char} {b : UInt8}
    (h : b ∈ String.utf8EncodeChar c) (hb : b.toNat < 0x80) : c.toNat = b.toNat := by
  have hvalid : c.toNat < 0xD800 ∨ 0xDFFF < c.toNat ∧ c.toNat < 0x110000 := c.valid
  have htail : ∀ n, b ≠ tail n := by
    rintro n rfl
    rw [toNat_tail] at hb
    omega
  have hlead : ∀ n, 192 ≤ n → n < 256 → b ≠ UInt8.ofNat n := by
    rintro n hmin hmax rfl
    rw [UInt8.toNat_ofNat'] at hb
    omega
  by_cases hone : c.toNat ≤ 0x7F
  · rw [utf8EncodeChar_one hone, List.mem_singleton] at h
    rw [h, UInt8.toNat_ofNat']
    omega
  by_cases htwo : c.toNat ≤ 0x7FF
  · rw [utf8EncodeChar_two (by omega) htwo] at h
    simp only [List.mem_cons, htail, List.not_mem_nil, or_false] at h
    exact absurd h (hlead _ (by omega) (by omega))
  by_cases hthree : c.toNat ≤ 0xFFFF
  · rw [utf8EncodeChar_three (by omega) hthree] at h
    simp only [List.mem_cons, htail, List.not_mem_nil, or_false] at h
    exact absurd h (hlead _ (by omega) (by omega))
  · rw [utf8EncodeChar_four (by omega)] at h
    simp only [List.mem_cons, htail, List.not_mem_nil, or_false] at h
    exact absurd h (hlead _ (by omega) (by omega))

/-! ## What a successful reading has met -/

theorem map_cons_eq_ok_iff {c : Char} {r : Except Fault (List Char)} {cs : List Char} :
    r.map (c :: ·) = .ok cs ↔ ∃ ds, cs = c :: ds ∧ r = .ok ds := by
  cases r with
  | error cause => simp [Except.map]
  | ok ds => simp [Except.map, eq_comm]

section Pending

variable {pos start more bits : Nat} {low high : UInt8} {octets : List UInt8} {cs : List Char}

/-- A pending character goes on with a tail in its range. -/
theorem exists_tail_of_readFrom (hlow : 0x80 ≤ low.toNat) (hhigh : high.toNat ≤ 0xBF)
    (h : readFrom pos (some (start, ⟨more, low, high, bits⟩)) octets = .ok cs) :
    ∃ n rest, n < 64 ∧ octets = tail n :: rest ∧ low.toNat ≤ n + 128 ∧ n + 128 ≤ high.toNat ∧
      (if more ≤ 1 then (readFrom (pos + 1) none rest).map (Char.ofNat (bits * 64 + n) :: ·)
        else readFrom (pos + 1) (some (start, ⟨more - 1, 0x80, 0xBF, bits * 64 + n⟩)) rest) =
          .ok cs := by
  cases octets with
  | nil => simp [readFrom] at h
  | cons b rest =>
    by_cases hrange : low ≤ b ∧ b ≤ high
    · have hrange' := hrange
      rw [UInt8.le_iff_toNat_le, UInt8.le_iff_toNat_le] at hrange'
      obtain ⟨n, hn, rfl⟩ := exists_tail (Nat.le_trans hlow hrange'.1)
        (Nat.le_trans hrange'.2 hhigh)
      have hmod : n % 64 = n := Nat.mod_eq_of_lt hn
      rw [toNat_tail, hmod] at hrange'
      refine ⟨n, rest, hn, rfl, hrange'.1, hrange'.2, ?_⟩
      rw [← h, readFrom_tail (by rw [hmod]; exact hrange'.1) (by rw [hmod]; exact hrange'.2), hmod]
    · rw [readFrom, if_neg hrange] at h
      cases h

/-- The last octet of a character. -/
theorem exists_last_of_readFrom
    (h : readFrom pos (some (start, ⟨1, 0x80, 0xBF, bits⟩)) octets = .ok cs) :
    ∃ n rest ds, n < 64 ∧ octets = tail n :: rest ∧ cs = Char.ofNat (bits * 64 + n) :: ds ∧
      readFrom (pos + 1) none rest = .ok ds := by
  obtain ⟨n, rest, hn, hoctets, -, -, hread⟩ := exists_tail_of_readFrom (by decide) (by decide) h
  rw [if_pos (by decide), map_cons_eq_ok_iff] at hread
  obtain ⟨ds, hcs, hread⟩ := hread
  exact ⟨n, rest, ds, hn, hoctets, hcs, hread⟩

end Pending

theorem exists_char {n : Nat} (h : n < 0xD800 ∨ 0xDFFF < n ∧ n < 0x110000) :
    ∃ c : Char, c.toNat = n ∧ Char.ofNat n = c := by
  have hvalid : n.isValidChar := h
  refine ⟨Char.ofNat n, ?_, rfl⟩
  rw [Char.ofNat, dif_pos hvalid]
  rfl

/-! ## Reading off one character -/

/-- The octets start with a character, which is read first, and the reading goes on behind it. -/
def ReadsOff (octets : List UInt8) (cs : List Char) : Prop :=
  ∃ c rest ds pos, octets = String.utf8EncodeChar c ++ rest ∧ cs = c :: ds ∧
    readFrom pos none rest = .ok ds

section Character

variable {pos start x : Nat} {octets : List UInt8} {cs : List Char}

theorem readsOff_one {b : UInt8} (hb : b < 0x80)
    (h : readFrom pos none (b :: octets) = .ok cs) : ReadsOff (b :: octets) cs := by
  have hmax : b.toNat < 128 := UInt8.lt_iff_toNat_lt.mp hb
  obtain ⟨c, hc, hchar⟩ := exists_char (n := b.toNat) (by omega)
  rw [readFrom_ascii hb, map_cons_eq_ok_iff, hchar] at h
  obtain ⟨ds, hcs, hread⟩ := h
  refine ⟨c, octets, ds, _, ?_, hcs, hread⟩
  rw [utf8EncodeChar_one (by omega), hc, UInt8.ofNat_toNat]
  rfl

theorem readsOff_two (hmin : 2 ≤ x) (hmax : x < 32)
    (h : readFrom pos (some (start, ⟨1, 0x80, 0xBF, x⟩)) octets = .ok cs) :
    ReadsOff (UInt8.ofNat (x + 192) :: octets) cs := by
  obtain ⟨n, rest, ds, hn, rfl, rfl, hread⟩ := exists_last_of_readFrom h
  obtain ⟨c, hc, hchar⟩ := exists_char (n := x * 64 + n) (by omega)
  have hlead : c.toNat / 64 = x := by omega
  have htail : tail c.toNat = tail n := tail_congr (by omega)
  refine ⟨c, rest, ds, _, ?_, by rw [hchar], hread⟩
  rw [utf8EncodeChar_two (by omega) (by omega), hlead, htail]
  rfl

theorem readsOff_three (hmax : x < 16)
    (h : readFrom pos (some (start, ⟨2, if x = 0 then 0xA0 else 0x80,
      if x = 13 then 0x9F else 0xBF, x⟩)) octets = .ok cs) :
    ReadsOff (UInt8.ofNat (x + 224) :: octets) cs := by
  obtain ⟨n, rest, hn, rfl, hlow, hhigh, hmore⟩ :=
    exists_tail_of_readFrom (by split <;> decide) (by split <;> decide) h
  have hlong : x = 0 → 32 ≤ n := by
    intro hx
    rw [if_pos hx] at hlow
    have hbound : 160 ≤ n + 128 := hlow
    omega
  have hsurrogate : x = 13 → n < 32 := by
    intro hx
    rw [if_pos hx] at hhigh
    have hbound : n + 128 ≤ 159 := hhigh
    omega
  rw [if_neg (by decide)] at hmore
  obtain ⟨m, rest, ds, hm, rfl, rfl, hread⟩ := exists_last_of_readFrom hmore
  obtain ⟨c, hc, hchar⟩ := exists_char (n := (x * 64 + n) * 64 + m) (by omega)
  have hlead : c.toNat / 4096 = x := by omega
  have htail : tail (c.toNat / 64) = tail n := tail_congr (by omega)
  have hlast : tail c.toNat = tail m := tail_congr (by omega)
  refine ⟨c, rest, ds, _, ?_, by rw [hchar], hread⟩
  rw [utf8EncodeChar_three (by omega) (by omega), hlead, htail, hlast]
  rfl

theorem readsOff_four (hmax : x < 5)
    (h : readFrom pos (some (start, ⟨3, if x = 0 then 0x90 else 0x80,
      if x = 4 then 0x8F else 0xBF, x⟩)) octets = .ok cs) :
    ReadsOff (UInt8.ofNat (x + 240) :: octets) cs := by
  obtain ⟨n, rest, hn, rfl, hlow, hhigh, hmore⟩ :=
    exists_tail_of_readFrom (by split <;> decide) (by split <;> decide) h
  have hlong : x = 0 → 16 ≤ n := by
    intro hx
    rw [if_pos hx] at hlow
    have hbound : 144 ≤ n + 128 := hlow
    omega
  have hlarge : x = 4 → n < 16 := by
    intro hx
    rw [if_pos hx] at hhigh
    have hbound : n + 128 ≤ 143 := hhigh
    omega
  rw [if_neg (by decide)] at hmore
  obtain ⟨m, rest, hm, rfl, -, -, hlast⟩ := exists_tail_of_readFrom (by decide) (by decide) hmore
  rw [if_neg (by decide)] at hlast
  obtain ⟨l, rest, ds, hl, rfl, rfl, hread⟩ := exists_last_of_readFrom hlast
  obtain ⟨c, hc, hchar⟩ := exists_char (n := ((x * 64 + n) * 64 + m) * 64 + l) (by omega)
  have hlead : c.toNat / 262144 = x := by omega
  have hfirst : tail (c.toNat / 4096) = tail n := tail_congr (by omega)
  have hnext : tail (c.toNat / 64) = tail m := tail_congr (by omega)
  have hend : tail c.toNat = tail l := tail_congr (by omega)
  refine ⟨c, rest, ds, _, ?_, by rw [hchar], hread⟩
  rw [utf8EncodeChar_four (by omega), hlead, hfirst, hnext, hend]
  rfl

/-- **One character.** Between characters, octets read only if a character starts there. -/
theorem readsOff_of_readFrom {b : UInt8} (h : readFrom pos none (b :: octets) = .ok cs) :
    ReadsOff (b :: octets) cs := by
  by_cases hb : b < 0x80
  · exact readsOff_one hb h
  · cases hp : lead? b with
    | none =>
      rw [readFrom, if_neg hb, hp] at h
      cases h
    | some p =>
      rw [readFrom_lead hp] at h
      rcases lead?_cases hp with ⟨x, hmin, hmax, rfl⟩ | ⟨x, hmax, rfl⟩ | ⟨x, hmax, rfl⟩
      · rw [lead?_two x hmax hmin] at hp
        cases hp
        exact readsOff_two hmin hmax h
      · rw [lead?_three x hmax] at hp
        cases hp
        exact readsOff_three hmax h
      · rw [lead?_four x hmax] at hp
        cases hp
        exact readsOff_four hmax h

end Character

/-! ## The whole text -/

theorem eq_flatMap_of_readFrom {pos : Nat} {octets : List UInt8} {cs : List Char}
    (h : readFrom pos none octets = .ok cs) : octets = cs.flatMap String.utf8EncodeChar := by
  induction cs generalizing pos octets with
  | nil =>
    cases octets with
    | nil => rfl
    | cons b octets =>
      obtain ⟨c, rest, ds, pos', -, hcs, -⟩ := readsOff_of_readFrom h
      cases hcs
  | cons c cs ih =>
    cases octets with
    | nil => cases h
    | cons b octets =>
      obtain ⟨c', rest, ds, pos', hoctets, hcs, hread⟩ := readsOff_of_readFrom h
      obtain ⟨rfl, rfl⟩ := List.cons.inj hcs
      rw [hoctets, List.flatMap_cons, ← ih hread]

/-- **Exactly UTF-8.** Octets read as a text if they are its UTF-8, and only then. -/
theorem read_eq_ok_iff {octets : List UInt8} {cs : List Char} :
    read octets = .ok cs ↔ octets = cs.flatMap String.utf8EncodeChar := by
  constructor
  · exact eq_flatMap_of_readFrom
  · rintro rfl
    exact read_flatMap_utf8EncodeChar cs

end PathTemplate.Text.Utf8
