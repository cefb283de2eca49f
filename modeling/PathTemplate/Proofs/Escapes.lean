import PathTemplate.Proofs.Utf8

/-!
What a token decodes to. `Decodable` says of the token as it stands that its escapes are complete
and that the octets it means are UTF-8; a decodable token decodes to the text with these octets, and
every other token is kept (`decode_correct`). It follows that each way to write a text with escapes
is undone (`octets?_of_spells`).
-/

namespace PathTemplate.Escape

open Text

/-! ## The octets that a token means -/

/-- Two hex digits stand behind every percent sign. -/
def WellEscaped (cs : List Char) : Prop :=
  ∀ before after, cs = before ++ '%' :: after →
    ∃ a b rest x y, after = a :: b :: rest ∧ hexDigit? a = some x ∧ hexDigit? b = some y

/-- The value of an octet that is a hex digit. -/
def hexOctet? (b : UInt8) : Option Nat := hexDigit? (Char.ofNat b.toNat)

/-- Each escape gives way to the octet that it names, and all other octets are kept. -/
def unescape : List UInt8 → List UInt8
  | [] => []
  | 0x25 :: a :: b :: rest =>
    match hexOctet? a, hexOctet? b with
    | some x, some y => UInt8.ofNat (x * 16 + y) :: unescape rest
    | _, _ => 0x25 :: unescape (a :: b :: rest)
  | b :: rest => b :: unescape rest

/-- The octets of a text without its escapes. In a form a plus sign is a space before they are
taken out. -/
def meant (d : Decoding) (cs : List Char) : List UInt8 :=
  unescape ((cs.map (plain d)).flatMap String.utf8EncodeChar)

/-- The escapes are complete, and the octets are UTF-8. -/
def Decodable (d : Decoding) (token : String) : Prop :=
  WellEscaped token.toList ∧ (meant d token.toList).toByteArray.IsValidUTF8

/-! ## Hex digits -/

section Hex

variable {a : Char} {x : Nat}

theorem hexDigit?_ranges (h : hexDigit? a = some x) :
    (48 ≤ a.toNat ∧ a.toNat ≤ 57 ∨ 97 ≤ a.toNat ∧ a.toNat ≤ 102 ∨ 65 ≤ a.toNat ∧ a.toNat ≤ 70) := by
  unfold hexDigit? at h
  split at h
  · rename_i hr
    exact Or.inl hr
  split at h
  · rename_i hr
    exact Or.inr (Or.inl hr)
  split at h
  · rename_i hr
    exact Or.inr (Or.inr hr)
  · cases h

theorem ne_percent_of_hexDigit? (h : hexDigit? a = some x) : a ≠ '%' := by
  rintro rfl
  have hnone : hexDigit? '%' = none := by decide
  simp [hnone] at h

/-- Hex digits stand for themselves. -/
theorem plain_of_hexDigit? (d : Decoding) (h : hexDigit? a = some x) : plain d a = a := by
  have hplus : a ≠ '+' := by
    rintro rfl
    have hnone : hexDigit? '+' = none := by decide
    simp [hnone] at h
  cases d with
  | percent => rfl
  | form => exact if_neg hplus

theorem utf8EncodeChar_of_hexDigit? (h : hexDigit? a = some x) :
    String.utf8EncodeChar a = [UInt8.ofNat a.toNat] := by
  have hr := hexDigit?_ranges h
  exact Utf8.utf8EncodeChar_one (by omega)

theorem hexOctet?_of_hexDigit? (h : hexDigit? a = some x) :
    hexOctet? (UInt8.ofNat a.toNat) = some x := by
  have hr := hexDigit?_ranges h
  have hoctet : (UInt8.ofNat a.toNat).toNat = a.toNat := by
    rw [UInt8.toNat_ofNat']
    omega
  rw [hexOctet?, hoctet, Char.ofNat_toNat, h]

end Hex

theorem plain_percent (d : Decoding) : plain d '%' = '%' := by
  cases d <;> rfl

theorem plain_ne_percent (d : Decoding) {c : Char} (hc : c ≠ '%') : plain d c ≠ '%' := by
  cases d with
  | percent => exact hc
  | form =>
    by_cases hp : c = '+'
    · rw [plain, if_pos hp]
      decide
    · rw [plain, if_neg hp]
      exact hc

/-! ## Complete escapes -/

theorem wellEscaped_nil : WellEscaped [] := by
  intro before after h
  simp at h

theorem wellEscaped_cons_of_ne {c : Char} (hc : c ≠ '%') {cs : List Char} :
    WellEscaped (c :: cs) ↔ WellEscaped cs := by
  constructor
  · intro h before after hcs
    exact h (c :: before) after (by rw [hcs]; rfl)
  · intro h before after hcs
    cases before with
    | nil =>
      obtain ⟨rfl, -⟩ := List.cons.inj hcs
      exact absurd rfl hc
    | cons d before =>
      obtain ⟨-, hcs⟩ := List.cons.inj hcs
      exact h before after hcs

theorem wellEscaped_percent {cs : List Char} :
    WellEscaped ('%' :: cs) ↔
      ∃ a b rest x y, cs = a :: b :: rest ∧ hexDigit? a = some x ∧ hexDigit? b = some y ∧
        WellEscaped rest := by
  constructor
  · intro h
    obtain ⟨a, b, rest, x, y, rfl, hx, hy⟩ := h [] cs rfl
    refine ⟨a, b, rest, x, y, rfl, hx, hy, ?_⟩
    intro before after hrest
    exact h ('%' :: a :: b :: before) after (by rw [hrest]; rfl)
  · rintro ⟨a, b, rest, x, y, rfl, hx, hy, hrest⟩
    have hdigits : WellEscaped (a :: b :: rest) := by
      rw [wellEscaped_cons_of_ne (ne_percent_of_hexDigit? hx),
        wellEscaped_cons_of_ne (ne_percent_of_hexDigit? hy)]
      exact hrest
    intro before after hcs
    cases before with
    | nil =>
      obtain ⟨-, rfl⟩ := List.cons.inj hcs
      exact ⟨a, b, rest, x, y, rfl, hx, hy⟩
    | cons d before =>
      obtain ⟨-, hcs⟩ := List.cons.inj hcs
      exact hdigits before after hcs

/-- Induction along the characters and escapes of a text. -/
theorem WellEscaped.induct {motive : (cs : List Char) → WellEscaped cs → Prop}
    (nil : motive [] wellEscaped_nil)
    (raw : ∀ c cs (hc : c ≠ '%') (h : WellEscaped cs), motive cs h →
      motive (c :: cs) ((wellEscaped_cons_of_ne hc).mpr h))
    (escape : ∀ a b x y cs (hx : hexDigit? a = some x) (hy : hexDigit? b = some y)
      (h : WellEscaped cs), motive cs h →
        motive ('%' :: a :: b :: cs)
          (wellEscaped_percent.mpr ⟨a, b, cs, x, y, rfl, hx, hy, h⟩))
    (cs : List Char) (h : WellEscaped cs) : motive cs h := by
  induction hn : cs.length using Nat.strongRecOn generalizing cs with
  | ind n ih =>
    cases cs with
    | nil => exact nil
    | cons c cs =>
      rw [List.length_cons] at hn
      by_cases hc : c = '%'
      · subst hc
        obtain ⟨a, b, rest, x, y, rfl, hx, hy, hrest⟩ := wellEscaped_percent.mp h
        rw [List.length_cons, List.length_cons] at hn
        exact escape a b x y rest hx hy hrest (ih rest.length (by omega) rest hrest rfl)
      · have hcs := (wellEscaped_cons_of_ne hc).mp h
        exact raw c cs hc hcs (ih cs.length (by omega) cs hcs rfl)

/-! ## Taking escapes out -/

theorem unescape_cons_of_ne {b : UInt8} (hb : b ≠ 0x25) (rest : List UInt8) :
    unescape (b :: rest) = b :: unescape rest := by
  rw [unescape]
  rintro x y z rfl
  exact absurd rfl hb

theorem unescape_append_of_not_mem {octets : List UInt8} (h : 0x25 ∉ octets)
    (rest : List UInt8) : unescape (octets ++ rest) = octets ++ unescape rest := by
  induction octets with
  | nil => rfl
  | cons b octets ih =>
    simp only [List.mem_cons, not_or] at h
    rw [List.cons_append, unescape_cons_of_ne (Ne.symm h.1), ih h.2]
    rfl

/-- The UTF-8 of other characters has no percent sign in it. -/
theorem percent_not_mem_utf8EncodeChar {c : Char} (hc : c ≠ '%') :
    (0x25 : UInt8) ∉ String.utf8EncodeChar c := by
  intro h
  have hc' : c.toNat = '%'.toNat := Utf8.toNat_eq_of_mem_utf8EncodeChar h (by decide)
  exact hc (Char.toNat_inj.mp hc')

section Meant

variable {d : Decoding}

theorem meant_cons_of_ne {c : Char} (hc : c ≠ '%') (cs : List Char) :
    meant d (c :: cs) = String.utf8EncodeChar (plain d c) ++ meant d cs := by
  rw [meant, List.map_cons, List.flatMap_cons,
    unescape_append_of_not_mem (percent_not_mem_utf8EncodeChar (plain_ne_percent d hc))]
  rfl

theorem meant_escape {a b : Char} {x y : Nat} (hx : hexDigit? a = some x)
    (hy : hexDigit? b = some y) (cs : List Char) :
    meant d ('%' :: a :: b :: cs) = UInt8.ofNat (x * 16 + y) :: meant d cs := by
  have hpercent : String.utf8EncodeChar '%' = [0x25] := by decide
  simp only [meant, List.map_cons, List.flatMap_cons, plain_percent, plain_of_hexDigit? d hx,
    plain_of_hexDigit? d hy, hpercent, utf8EncodeChar_of_hexDigit? hx,
    utf8EncodeChar_of_hexDigit? hy, List.cons_append, List.nil_append]
  rw [unescape, hexOctet?_of_hexDigit? hx, hexOctet?_of_hexDigit? hy]

end Meant

/-! ## What the reader makes of a token -/

section Read

variable {d : Decoding} {cs : List Char}

theorem octets?_escape {a b : Char} {x y : Nat} (hx : hexDigit? a = some x)
    (hy : hexDigit? b = some y) (rest : List Char) :
    octets? d ('%' :: a :: b :: rest) =
      (octets? d rest).map (UInt8.ofNat (x * 16 + y) :: ·) := by
  rw [octets?, hx, hy]

theorem octets?_of_wellEscaped (h : WellEscaped cs) : octets? d cs = some (meant d cs) := by
  induction cs, h using WellEscaped.induct with
  | nil => rfl
  | raw c cs hc _ ih => rw [octets?_cons_of_ne hc, ih, meant_cons_of_ne hc, Option.map_some]
  | escape a b x y cs hx hy _ ih =>
    rw [octets?_escape hx hy, ih, meant_escape hx hy, Option.map_some]

theorem wellEscaped_of_octets? {octets : List UInt8} (h : octets? d cs = some octets) :
    WellEscaped cs := by
  fun_induction octets? d cs generalizing octets with
  | case1 => exact wellEscaped_nil
  | case2 a b rest x y hy hx ih =>
    obtain ⟨os, hos, -⟩ := Option.map_eq_some_iff.mp h
    exact wellEscaped_percent.mpr ⟨a, b, rest, x, y, rfl, hx, hy, ih hos⟩
  | case3 | case4 => cases h
  | case5 c rest _ hc ih =>
    obtain ⟨os, hos, -⟩ := Option.map_eq_some_iff.mp h
    exact (wellEscaped_cons_of_ne hc).mpr (ih hos)

theorem octets?_of_not_wellEscaped (h : ¬ WellEscaped cs) : octets? d cs = none := by
  cases ho : octets? d cs with
  | none => rfl
  | some octets => exact absurd (wellEscaped_of_octets? ho) h

variable {token : String}

/-- Only incomplete escapes are malformed. -/
theorem read_eq_malformed_iff : read d token = .error .malformed ↔ ¬ WellEscaped token.toList := by
  by_cases h : WellEscaped token.toList
  · rw [read, octets?_of_wellEscaped h]
    cases hr : Utf8.read (meant d token.toList) <;> simp [h, hr]
  · rw [read, octets?_of_not_wellEscaped h]
    simp [h]

/-- A token reads as the text whose UTF-8 it means. -/
theorem read_eq_ok_iff {text : String} :
    read d token = .ok text ↔ WellEscaped token.toList ∧
      text.toByteArray = (meant d token.toList).toByteArray := by
  by_cases h : WellEscaped token.toList
  · have hutf8 : Utf8.read (meant d token.toList) = .ok text.toList ↔
        text.toByteArray = (meant d token.toList).toByteArray := by
      rw [Utf8.read_eq_ok_iff, ← String.utf8Encode_toList, List.utf8Encode, List.toByteArray_inj,
        eq_comm]
    rw [read, octets?_of_wellEscaped h, ← hutf8]
    cases hr : Utf8.read (meant d token.toList) with
    | ok cs => simp [h, hr, String.ext_iff]
    | error cause => simp [hr]
  · rw [read, octets?_of_not_wellEscaped h]
    simp [h]

theorem decodable_iff : Decodable d token ↔ ∃ text, read d token = .ok text := by
  constructor
  · rintro ⟨h, hvalid⟩
    exact ⟨⟨_, hvalid⟩, read_eq_ok_iff.mpr ⟨h, rfl⟩⟩
  · rintro ⟨text, hread⟩
    obtain ⟨h, htext⟩ := read_eq_ok_iff.mp hread
    exact ⟨h, htext ▸ text.isValidUTF8⟩

instance : Decidable (Decodable d token) :=
  match hr : read d token with
  | .ok text => isTrue (decodable_iff.mpr ⟨text, hr⟩)
  | .error _ => isFalse fun h => by
    obtain ⟨text, ht⟩ := decodable_iff.mp h
    cases hr.symm.trans ht

theorem read_of_decodable (h : Decodable d token) : read d token = .ok (decode d token) := by
  obtain ⟨text, hread⟩ := decodable_iff.mp h
  rw [decode, hread]

theorem toByteArray_decode (h : Decodable d token) :
    (decode d token).toByteArray = (meant d token.toList).toByteArray :=
  (read_eq_ok_iff.mp (read_of_decodable h)).2

theorem decode_of_not_decodable (h : ¬ Decodable d token) : decode d token = token := by
  cases hread : read d token with
  | ok text => exact absurd (decodable_iff.mpr ⟨text, hread⟩) h
  | error cause => rw [decode, hread]

end Read

/-! ## Spellings -/

/-- Hex digits of either case, two behind each percent sign, write the octets one by one. -/
inductive Escaped : List Char → List UInt8 → Prop
  | nil : Escaped [] []
  | cons {a b : Char} {x y : Nat} {cs : List Char} {octets : List UInt8}
      (hx : hexDigit? a = some x) (hy : hexDigit? b = some y) (h : Escaped cs octets) :
      Escaped ('%' :: a :: b :: cs) (UInt8.ofNat (x * 16 + y) :: octets)

/-- The ways to write a text. A character stands as it is or as the escapes of all its octets; a
percent sign is always escaped. In a form so is a plus sign, and a plus sign may be written for a
space. -/
inductive Spells (d : Decoding) : List Char → List Char → Prop
  | nil : Spells d [] []
  | raw {c : Char} {written text : List Char} (hc : c ≠ '%') (hplus : d = .form → c ≠ '+')
      (h : Spells d written text) : Spells d (c :: written) (c :: text)
  | escaped {c : Char} {cs written text : List Char} (hc : Escaped cs (String.utf8EncodeChar c))
      (h : Spells d written text) : Spells d (cs ++ written) (c :: text)
  | space {written text : List Char} (hd : d = .form) (h : Spells d written text) :
      Spells d ('+' :: written) (' ' :: text)

section Spells

variable {d : Decoding}

theorem octets?_append_of_escaped {cs : List Char} {octets : List UInt8} (h : Escaped cs octets)
    (rest : List Char) : octets? d (cs ++ rest) = (octets? d rest).map (octets ++ ·) := by
  induction h with
  | nil => simp
  | @cons a b x y cs octets hx hy _ ih =>
    have hcons : '%' :: a :: b :: cs ++ rest = '%' :: a :: b :: (cs ++ rest) := rfl
    rw [hcons, octets?_escape hx hy, ih, Option.map_map]
    rfl

/-- **Spellings mean their text.** -/
theorem octets?_of_spells {written text : List Char} (h : Spells d written text) :
    octets? d written = some (text.flatMap String.utf8EncodeChar) := by
  induction h with
  | nil => rfl
  | @raw c written text hc hplus _ ih =>
    have hplain : plain d c = c := by
      cases d with
      | percent => rfl
      | form => exact if_neg (hplus rfl)
    rw [octets?_cons_of_ne hc, ih, hplain]
    rfl
  | @escaped c cs written text hc _ ih =>
    rw [octets?_append_of_escaped hc, ih]
    rfl
  | @space written text hd _ ih =>
    subst hd
    have hplus : ('+' : Char) ≠ '%' := by decide
    rw [octets?_cons_of_ne hplus, ih]
    rfl

theorem decode_of_spells {token text : String} (h : Spells d token.toList text.toList) :
    decode d token = text := by
  rw [decode, read, octets?_of_spells h]
  simp only [Utf8.read_flatMap_utf8EncodeChar, String.ofList_toList]

end Spells

/-- **Decoding.** A decodable token decodes to the text whose UTF-8 it means, any other token stays
as it is, and every spelling of a text decodes to this text. -/
theorem decode_correct (d : Decoding) (token : String) :
    (Decodable d token →
      (decode d token).toByteArray = (meant d token.toList).toByteArray) ∧
    (¬ Decodable d token → decode d token = token) ∧
    ∀ text : String, Spells d token.toList text.toList → decode d token = text :=
  ⟨toByteArray_decode, decode_of_not_decodable, fun _ => decode_of_spells⟩

/-- Hex digits of both cases, a space written as a plus sign, a percent sign that no hex digits
follow, and an octet that is the first of two. -/
theorem decode_correct_cafe :
    (Decodable .form "caf%C3%a9+%2B" ∧
      (decode .form "caf%C3%a9+%2B").toByteArray =
        (meant .form "caf%C3%a9+%2B".toList).toByteArray) ∧
    (¬ Decodable .percent "%%20" ∧ decode .percent "%%20" = "%%20") ∧
    (¬ Decodable .form "a+%C3" ∧ decode .form "a+%C3" = "a+%C3") ∧
    Spells .form "%C3%a9+x".toList "é x".toList ∧ decode .form "%C3%a9+x" = "é x" := by
  have hspells : Spells .form "%C3%a9+x".toList "é x".toList := by
    have hoctets : String.utf8EncodeChar 'é' =
        [UInt8.ofNat (12 * 16 + 3), UInt8.ofNat (10 * 16 + 9)] := by decide
    have hescaped : Escaped ['%', 'C', '3', '%', 'a', '9'] (String.utf8EncodeChar 'é') := by
      rw [hoctets]
      exact .cons rfl rfl (.cons rfl rfl .nil)
    have hx : Spells .form ['x'] ['x'] := .raw (by decide) (by decide) .nil
    have hspace : Spells .form ('+' :: ['x']) (' ' :: ['x']) := .space rfl hx
    exact .escaped hescaped hspace
  refine ⟨⟨by decide, ?_⟩, ⟨by decide, ?_⟩, ⟨by decide, ?_⟩, hspells, ?_⟩
  · exact (decode_correct .form "caf%C3%a9+%2B").1 (by decide)
  · exact (decode_correct .percent "%%20").2.1 (by decide)
  · exact (decode_correct .form "a+%C3").2.1 (by decide)
  · exact (decode_correct .form "%C3%a9+x").2.2 "é x" hspells

end PathTemplate.Escape
