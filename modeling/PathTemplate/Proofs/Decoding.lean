import PathTemplate.Escape

/-!
Reading back what was written. The UTF-8 of a text reads as this text
(`read_flatMap_utf8EncodeChar`): a lead octet, and the range that it sets for the octet after it,
let through the octets of each character. A token without a percent sign therefore decodes
character by character (`decode_of_percent_not_mem`).
-/

namespace PathTemplate

namespace Text.Utf8

/-! ## Lead octets -/

theorem lead?_two : ∀ x < 32, 2 ≤ x → lead? (UInt8.ofNat (x + 192)) = some ⟨1, 0x80, 0xBF, x⟩ := by
  decide

/-- No overlong forms below U+0800, and no surrogates. -/
theorem lead?_three : ∀ x < 16, lead? (UInt8.ofNat (x + 224)) =
    some ⟨2, if x = 0 then 0xA0 else 0x80, if x = 13 then 0x9F else 0xBF, x⟩ := by
  decide

/-- No overlong forms below U+10000, and nothing above U+10FFFF. -/
theorem lead?_four : ∀ x < 5, lead? (UInt8.ofNat (x + 240)) =
    some ⟨3, if x = 0 then 0x90 else 0x80, if x = 4 then 0x8F else 0xBF, x⟩ := by
  decide

/-! ## Reading one octet -/

section Octet

variable {pos : Nat} {b : UInt8} {p : Pending} {rest : List UInt8}

theorem readFrom_ascii (h : b < 0x80) :
    readFrom pos none (b :: rest) =
      (readFrom (pos + 1) none rest).map (Char.ofNat b.toNat :: ·) := by
  rw [readFrom, if_pos h]

theorem readFrom_lead (h : lead? b = some p) :
    readFrom pos none (b :: rest) = readFrom (pos + 1) (some (pos, p)) rest := by
  have hb : ¬ b < 0x80 := by
    intro hb
    have hlow : b < 0xC2 := by
      rw [UInt8.lt_iff_toNat_lt] at hb ⊢
      exact Nat.lt_trans hb (by decide)
    simp [lead?, hlow] at h
  rw [readFrom, if_neg hb, h]

end Octet

/-- An octet of a character that is not its first: six bits, marked by the upper two. -/
def tail (n : Nat) : UInt8 := UInt8.ofNat (n % 64 + 128)

theorem toNat_tail (n : Nat) : (tail n).toNat = n % 64 + 128 := by
  rw [tail, UInt8.toNat_ofNat']
  omega

theorem le_tail (n : Nat) : (0x80 : UInt8).toNat ≤ n % 64 + 128 := Nat.le_add_left 128 _

theorem tail_le (n : Nat) : n % 64 + 128 ≤ (0xBF : UInt8).toNat := by
  show n % 64 + 128 ≤ 191
  omega

/-- A tail adds its six bits to those known so far. -/
theorem readFrom_tail {pos start more bits n : Nat} {low high : UInt8} {rest : List UInt8}
    (hlow : low.toNat ≤ n % 64 + 128) (hhigh : n % 64 + 128 ≤ high.toNat) :
    readFrom pos (some (start, ⟨more, low, high, bits⟩)) (tail n :: rest) =
      if more ≤ 1 then (readFrom (pos + 1) none rest).map (Char.ofNat (bits * 64 + n % 64) :: ·)
      else readFrom (pos + 1) (some (start, ⟨more - 1, 0x80, 0xBF, bits * 64 + n % 64⟩)) rest := by
  have hrange : low ≤ tail n ∧ tail n ≤ high := by
    rw [UInt8.le_iff_toNat_le, UInt8.le_iff_toNat_le, toNat_tail]
    exact ⟨hlow, hhigh⟩
  have hbits : (tail n).toNat - 0x80 = n % 64 := by rw [toNat_tail, Nat.add_sub_cancel]
  rw [readFrom, if_pos hrange, hbits]

/-! ## Reading one character -/

section Character

variable (pos : Nat) (c : Char) (rest : List UInt8)

theorem ofNat_eq_of_eq_toNat {c : Char} {n : Nat} (h : n = c.toNat) : Char.ofNat n = c := by
  rw [h, Char.ofNat_toNat]

theorem readFrom_one (hmax : c.toNat ≤ 0x7F) :
    readFrom pos none (UInt8.ofNat c.toNat :: rest) =
      (readFrom (pos + 1) none rest).map (c :: ·) := by
  have hoctet : (UInt8.ofNat c.toNat).toNat = c.toNat := by
    rw [UInt8.toNat_ofNat']
    omega
  have hascii : UInt8.ofNat c.toNat < 0x80 := by
    rw [UInt8.lt_iff_toNat_lt, hoctet]
    show c.toNat < 128
    omega
  rw [readFrom_ascii hascii, hoctet, Char.ofNat_toNat]

theorem readFrom_two (hmin : 0x7F < c.toNat) (hmax : c.toNat ≤ 0x7FF) :
    readFrom pos none (UInt8.ofNat (c.toNat / 64 + 192) :: tail c.toNat :: rest) =
      (readFrom (pos + 2) none rest).map (c :: ·) := by
  have hlead := lead?_two (c.toNat / 64) (by omega) (by omega)
  have hbits : c.toNat / 64 * 64 + c.toNat % 64 = c.toNat := by omega
  rw [readFrom_lead hlead, readFrom_tail (le_tail _) (tail_le _), if_pos (by decide),
    ofNat_eq_of_eq_toNat hbits]

theorem readFrom_three (hmin : 0x7FF < c.toNat) (hmax : c.toNat ≤ 0xFFFF) :
    readFrom pos none
        (UInt8.ofNat (c.toNat / 4096 + 224) :: tail (c.toNat / 64) :: tail c.toNat :: rest) =
      (readFrom (pos + 3) none rest).map (c :: ·) := by
  have hvalid : c.toNat < 0xD800 ∨ 0xDFFF < c.toNat ∧ c.toNat < 0x110000 := c.valid
  have hlead := lead?_three (c.toNat / 4096) (by omega)
  have hlow : (if c.toNat / 4096 = 0 then 0xA0 else 0x80 : UInt8).toNat ≤
      c.toNat / 64 % 64 + 128 := by
    split
    · show 160 ≤ c.toNat / 64 % 64 + 128
      omega
    · exact le_tail _
  have hhigh : c.toNat / 64 % 64 + 128 ≤
      (if c.toNat / 4096 = 13 then 0x9F else 0xBF : UInt8).toNat := by
    split
    · show c.toNat / 64 % 64 + 128 ≤ 159
      omega
    · exact tail_le _
  have hbits : (c.toNat / 4096 * 64 + c.toNat / 64 % 64) * 64 + c.toNat % 64 = c.toNat := by omega
  rw [readFrom_lead hlead, readFrom_tail hlow hhigh, if_neg (by decide),
    readFrom_tail (le_tail _) (tail_le _), if_pos (by decide), ofNat_eq_of_eq_toNat hbits]

theorem readFrom_four (hmin : 0xFFFF < c.toNat) :
    readFrom pos none
        (UInt8.ofNat (c.toNat / 262144 + 240) :: tail (c.toNat / 4096) :: tail (c.toNat / 64) ::
          tail c.toNat :: rest) =
      (readFrom (pos + 4) none rest).map (c :: ·) := by
  have hvalid : c.toNat < 0xD800 ∨ 0xDFFF < c.toNat ∧ c.toNat < 0x110000 := c.valid
  have hlead := lead?_four (c.toNat / 262144) (by omega)
  have hlow : (if c.toNat / 262144 = 0 then 0x90 else 0x80 : UInt8).toNat ≤
      c.toNat / 4096 % 64 + 128 := by
    split
    · show 144 ≤ c.toNat / 4096 % 64 + 128
      omega
    · exact le_tail _
  have hhigh : c.toNat / 4096 % 64 + 128 ≤
      (if c.toNat / 262144 = 4 then 0x8F else 0xBF : UInt8).toNat := by
    split
    · show c.toNat / 4096 % 64 + 128 ≤ 143
      omega
    · exact tail_le _
  have hbits : ((c.toNat / 262144 * 64 + c.toNat / 4096 % 64) * 64 + c.toNat / 64 % 64) * 64 +
      c.toNat % 64 = c.toNat := by omega
  rw [readFrom_lead hlead, readFrom_tail hlow hhigh, if_neg (by decide),
    readFrom_tail (le_tail _) (tail_le _), if_neg (by decide),
    readFrom_tail (le_tail _) (tail_le _), if_pos (by decide), ofNat_eq_of_eq_toNat hbits]

/-! ### Its octets -/

variable {c}

theorem utf8EncodeChar_one (hmax : c.toNat ≤ 0x7F) :
    String.utf8EncodeChar c = [UInt8.ofNat c.toNat] := if_pos hmax

/-- A written lead octet is cut to its size, which takes nothing from a number in its range. -/
theorem utf8EncodeChar_two (hmin : 0x7F < c.toNat) (hmax : c.toNat ≤ 0x7FF) :
    String.utf8EncodeChar c = [UInt8.ofNat (c.toNat / 64 + 192), tail c.toNat] := by
  have hval : c.val.toNat = c.toNat := rfl
  have hlead : c.toNat / 64 % 32 = c.toNat / 64 := by omega
  unfold String.utf8EncodeChar
  simp only [hval]
  rw [if_neg (by omega), if_pos (by omega), hlead]
  rfl

theorem utf8EncodeChar_three (hmin : 0x7FF < c.toNat) (hmax : c.toNat ≤ 0xFFFF) :
    String.utf8EncodeChar c =
      [UInt8.ofNat (c.toNat / 4096 + 224), tail (c.toNat / 64), tail c.toNat] := by
  have hval : c.val.toNat = c.toNat := rfl
  have hlead : c.toNat / 4096 % 16 = c.toNat / 4096 := by omega
  unfold String.utf8EncodeChar
  simp only [hval]
  rw [if_neg (by omega), if_neg (by omega), if_pos (by omega), hlead]
  rfl

theorem utf8EncodeChar_four (hmin : 0xFFFF < c.toNat) :
    String.utf8EncodeChar c =
      [UInt8.ofNat (c.toNat / 262144 + 240), tail (c.toNat / 4096), tail (c.toNat / 64),
        tail c.toNat] := by
  have hval : c.val.toNat = c.toNat := rfl
  have hvalid : c.toNat < 0xD800 ∨ 0xDFFF < c.toNat ∧ c.toNat < 0x110000 := c.valid
  have hlead : c.toNat / 262144 % 8 = c.toNat / 262144 := by omega
  unfold String.utf8EncodeChar
  simp only [hval]
  rw [if_neg (by omega), if_neg (by omega), if_neg (by omega), hlead]
  rfl

variable (c)

/-- **One character.** Its octets read as it. -/
theorem readFrom_utf8EncodeChar :
    readFrom pos none (String.utf8EncodeChar c ++ rest) =
      (readFrom (pos + (String.utf8EncodeChar c).length) none rest).map (c :: ·) := by
  by_cases hone : c.toNat ≤ 0x7F
  · rw [utf8EncodeChar_one hone]
    exact readFrom_one pos c rest hone
  by_cases htwo : c.toNat ≤ 0x7FF
  · rw [utf8EncodeChar_two (by omega) htwo]
    exact readFrom_two pos c rest (by omega) htwo
  by_cases hthree : c.toNat ≤ 0xFFFF
  · rw [utf8EncodeChar_three (by omega) hthree]
    exact readFrom_three pos c rest (by omega) hthree
  · rw [utf8EncodeChar_four (by omega)]
    exact readFrom_four pos c rest (by omega)

end Character

/-- **Round trip.** The UTF-8 of a text reads as this text. -/
theorem read_flatMap_utf8EncodeChar (cs : List Char) :
    read (cs.flatMap String.utf8EncodeChar) = .ok cs := by
  have h : ∀ pos, readFrom pos none (cs.flatMap String.utf8EncodeChar) = .ok cs := by
    induction cs with
    | nil => intro pos; rfl
    | cons c cs ih =>
      intro pos
      rw [List.flatMap_cons, readFrom_utf8EncodeChar, ih]
      rfl
  exact h 0

end Text.Utf8

/-! ## Tokens without escapes -/

namespace Escape

variable {d : Decoding}

theorem octets?_cons_of_ne {c : Char} (hc : c ≠ '%') (cs : List Char) :
    octets? d (c :: cs) = (octets? d cs).map (String.utf8EncodeChar (plain d c) ++ ·) := by
  rw [octets?]
  · rintro a b rest rfl
    exact absurd rfl hc
  · rintro rfl
    exact absurd rfl hc

theorem octets?_of_percent_not_mem {cs : List Char} (h : '%' ∉ cs) :
    octets? d cs = some ((cs.map (plain d)).flatMap String.utf8EncodeChar) := by
  induction cs with
  | nil => rfl
  | cons c cs ih =>
    simp only [List.mem_cons, not_or] at h
    rw [octets?_cons_of_ne (Ne.symm h.1), ih h.2]
    rfl

/-- **No escapes.** Each character stands for itself, a plus sign apart. -/
theorem decode_of_percent_not_mem {token : String} (h : '%' ∉ token.toList) :
    decode d token = String.ofList (token.toList.map (plain d)) := by
  rw [decode, read, octets?_of_percent_not_mem h]
  simp only [Text.Utf8.read_flatMap_utf8EncodeChar]

theorem decode_percent_of_not_mem {token : String} (h : '%' ∉ token.toList) :
    decode .percent token = token := by
  have hplain : plain .percent = id := rfl
  rw [decode_of_percent_not_mem h, hplain, List.map_id, String.ofList_toList]

end Escape

end PathTemplate
