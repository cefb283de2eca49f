import Mathlib.Data.List.Forall2
import PathTemplate.Proofs.Bindings
import PathTemplate.Proofs.Escapes
import PathTemplate.Proofs.Stops

/-!
Decoding around separators. A character that is no part of an escape cuts a text in two that decode
on their own: no escape reaches over it, and no octets from its two sides make up a character
(`decode_append_char`). So does a character that is escaped (`decode_append_escaped`). The value of
a named rest, which is decoded token by token, is therefore the decoded rest as a whole, unless some
token has to be kept as it is (`decode_at_separators`).
-/

namespace PathTemplate

namespace Text.Utf8

/-- **Cuts.** A character in the middle cuts UTF-8 in two: no octet on one side of it takes part in
a character on the other. -/
theorem isValidUTF8_append_char_iff {x y : ByteArray} {c : Char} :
    (x ++ ((String.utf8EncodeChar c).toByteArray ++ y)).IsValidUTF8 ↔
      x.IsValidUTF8 ∧ y.IsValidUTF8 := by
  have hchar : ((String.utf8EncodeChar c).toByteArray ++ y).IsValidUTF8 ↔ y.IsValidUTF8 := by
    rw [← List.utf8Encode_singleton, ByteArray.isValidUTF8_utf8Encode_singleton_append_iff]
  constructor
  · intro h
    let s : String := ⟨_, h⟩
    have hlt : (⟨x.size⟩ : String.Pos.Raw) < s.rawEndPos := by
      have hc : 0 < (String.utf8EncodeChar c).length := by
        rw [String.length_utf8EncodeChar]
        exact Char.utf8Size_pos c
      rw [String.Pos.Raw.lt_iff, String.byteIdx_rawEndPos]
      simp only [s, String.utf8ByteSize, ByteArray.size_append, List.size_toByteArray]
      omega
    -- A position where a first octet stands is one between two characters.
    have hfirst : (s.getUTF8Byte ⟨x.size⟩ hlt).IsUTF8FirstByte := by
      rw [String.getUTF8Byte_eq_getElem]
      simp only [s]
      rw [ByteArray.getElem_append_right (Nat.le_refl _)]
      simpa using ByteArray.isUTF8FirstByte_getElem_zero_utf8EncodeChar_append (c := c) (b := y)
    have hcut : String.Pos.Raw.IsValid s ⟨x.size⟩ :=
      String.Pos.Raw.isValid_iff_isUTF8FirstByte.mpr (Or.inr ⟨hlt, hfirst⟩)
    have hleft := hcut.isValidUTF8_extract_zero
    have hright := hcut.isValidUTF8_extract_utf8ByteSize
    have hsize : s.utf8ByteSize = x.size + ((String.utf8EncodeChar c).toByteArray ++ y).size := by
      simp only [s, String.utf8ByteSize, ByteArray.size_append]
    rw [ByteArray.extract_append_eq_left rfl] at hleft
    rw [hsize, ByteArray.extract_append_eq_right rfl rfl, hchar] at hright
    exact ⟨hleft, hright⟩
  · rintro ⟨hx, hy⟩
    exact hx.append (hchar.mpr hy)

end Text.Utf8

namespace Escape

open Text

/-! ## Escapes on the two sides -/

section Append

variable {as bs : List Char}

/-- No escape reaches over a character that is no hex digit. -/
theorem wellEscaped_append_cons_iff {c : Char} (hdigit : hexDigit? c = none) :
    WellEscaped (as ++ c :: bs) ↔ WellEscaped as ∧ WellEscaped (c :: bs) := by
  constructor
  · intro h
    refine ⟨?_, ?_⟩
    · intro before after has
      obtain ⟨a, b, rest, x, y, hafter, hx, hy⟩ := h before (after ++ c :: bs) (by simp [has])
      cases after with
      | nil =>
        obtain ⟨rfl, -⟩ := List.cons.inj hafter
        simp [hdigit] at hx
      | cons u after =>
        obtain ⟨rfl, hbehind⟩ := List.cons.inj hafter
        cases after with
        | nil =>
          obtain ⟨rfl, -⟩ := List.cons.inj hbehind
          simp [hdigit] at hy
        | cons v after =>
          obtain ⟨rfl, -⟩ := List.cons.inj hbehind
          exact ⟨u, v, after, x, y, rfl, hx, hy⟩
    · intro before after hbs
      exact h (as ++ before) after (by simp [hbs])
  · rintro ⟨has, hbs⟩
    induction as, has using WellEscaped.induct with
    | nil => exact hbs
    | raw a as ha _ ih => exact (wellEscaped_cons_of_ne ha).mpr ih
    | escape a b x y as hx hy _ ih =>
      exact wellEscaped_percent.mpr ⟨a, b, as ++ c :: bs, x, y, rfl, hx, hy, ih⟩

theorem meant_append {d : Decoding} (has : WellEscaped as) (bs : List Char) :
    meant d (as ++ bs) = meant d as ++ meant d bs := by
  induction as, has using WellEscaped.induct with
  | nil => rfl
  | raw a as ha _ ih =>
    rw [List.cons_append, meant_cons_of_ne ha, ih, meant_cons_of_ne ha, List.append_assoc]
  | escape a b x y as hx hy _ ih =>
    have hcons : '%' :: a :: b :: as ++ bs = '%' :: a :: b :: (as ++ bs) := rfl
    rw [hcons, meant_escape hx hy, ih, meant_escape hx hy, List.cons_append]

end Append

/-- **Cuts.** A character in the middle of what a text means cuts it in two that decode on their
own, however the character is written. -/
theorem decode_of_meant_eq {d : Decoding} {text a b : String} {c : Char} (h : Decodable d text)
    (ha : WellEscaped a.toList) (hb : WellEscaped b.toList)
    (hmeant : meant d text.toList =
      meant d a.toList ++ (String.utf8EncodeChar c ++ meant d b.toList)) :
    Decodable d a ∧ Decodable d b ∧
      decode d text = decode d a ++ String.singleton c ++ decode d b := by
  have hvalid := h.2
  rw [hmeant, List.toByteArray_append, List.toByteArray_append,
    Utf8.isValidUTF8_append_char_iff] at hvalid
  have hda : Decodable d a := ⟨ha, hvalid.1⟩
  have hdb : Decodable d b := ⟨hb, hvalid.2⟩
  refine ⟨hda, hdb, ?_⟩
  rw [← String.toByteArray_inj, toByteArray_decode h, hmeant]
  simp only [List.toByteArray_append, String.toByteArray_append, toByteArray_decode hda,
    toByteArray_decode hdb, ByteArray.append_assoc, String.toByteArray_singleton,
    List.utf8Encode_singleton]

/-! ## Characters as they are -/

section Cut

variable {c : Char} (hc : c ≠ '%') (hdigit : hexDigit? c = none)

include hc hdigit

theorem wellEscaped_append_char_iff {as bs : List Char} :
    WellEscaped (as ++ c :: bs) ↔ WellEscaped as ∧ WellEscaped bs := by
  rw [wellEscaped_append_cons_iff hdigit, wellEscaped_cons_of_ne hc]

omit hdigit in
theorem meant_append_char {d : Decoding} {as : List Char} (has : WellEscaped as)
    (bs : List Char) :
    meant d (as ++ c :: bs) =
      meant d as ++ (String.utf8EncodeChar (plain d c) ++ meant d bs) := by
  rw [meant_append has, meant_cons_of_ne hc]

variable {d : Decoding} {a b : String}

omit hc hdigit in
theorem toList_append_char (a b : String) (c : Char) :
    (a ++ String.singleton c ++ b).toList = a.toList ++ c :: b.toList := by
  simp

theorem decodable_append_char_iff :
    Decodable d (a ++ String.singleton c ++ b) ↔ Decodable d a ∧ Decodable d b := by
  constructor
  · intro h
    have hwell := h.1
    rw [toList_append_char, wellEscaped_append_char_iff hc hdigit] at hwell
    obtain ⟨ha, hb, -⟩ := decode_of_meant_eq h hwell.1 hwell.2
      (by rw [toList_append_char, meant_append_char hc hwell.1])
    exact ⟨ha, hb⟩
  · rintro ⟨⟨ha, hva⟩, hb, hvb⟩
    rw [Decodable, toList_append_char, wellEscaped_append_char_iff hc hdigit,
      meant_append_char hc ha, List.toByteArray_append, List.toByteArray_append,
      Utf8.isValidUTF8_append_char_iff]
    exact ⟨⟨ha, hb⟩, hva, hvb⟩

omit hdigit in
theorem decode_singleton :
    decode d (String.singleton c) = String.singleton (plain d c) := by
  have hmem : '%' ∉ (String.singleton c).toList := by simpa using Ne.symm hc
  rw [decode_of_percent_not_mem hmem]
  simp

/-- Decoding goes piece by piece around a character that takes no part in an escape. -/
theorem decode_append_char (ha : Decodable d a) (hb : Decodable d b) :
    decode d (a ++ String.singleton c ++ b) =
      decode d a ++ decode d (String.singleton c) ++ decode d b := by
  have hab : Decodable d (a ++ String.singleton c ++ b) :=
    (decodable_append_char_iff hc hdigit).mpr ⟨ha, hb⟩
  have hmeant : meant d (a ++ String.singleton c ++ b).toList =
      meant d a.toList ++ (String.utf8EncodeChar (plain d c) ++ meant d b.toList) := by
    rw [toList_append_char, meant_append_char hc ha.1]
  rw [decode_singleton hc]
  exact (decode_of_meant_eq hab ha.1 hb.1 hmeant).2.2

end Cut

/-! ## Escaped characters -/

section Escaped

variable {d : Decoding} {cs : List Char} {octets : List UInt8}

theorem wellEscaped_append_of_escaped (h : Escaped cs octets) {rest : List Char}
    (hrest : WellEscaped (cs ++ rest)) : WellEscaped rest := by
  induction h with
  | nil => exact hrest
  | cons hx hy _ ih =>
    obtain ⟨a, b, behind, x, y, hcons, -, -, hbehind⟩ := wellEscaped_percent.mp hrest
    obtain ⟨-, hcons⟩ := List.cons.inj hcons
    obtain ⟨-, rfl⟩ := List.cons.inj hcons
    exact ih hbehind

theorem meant_append_of_escaped (h : Escaped cs octets) (rest : List Char) :
    meant d (cs ++ rest) = octets ++ meant d rest := by
  induction h with
  | nil => rfl
  | @cons a b x y cs octets hx hy _ ih =>
    have hcons : '%' :: a :: b :: cs ++ rest = '%' :: a :: b :: (cs ++ rest) := rfl
    rw [hcons, meant_escape hx hy, ih]
    rfl

theorem exists_percent_of_escaped (h : Escaped cs octets) (hne : octets ≠ []) :
    ∃ ds, cs = '%' :: ds := by
  cases h with
  | nil => exact absurd rfl hne
  | cons => exact ⟨_, rfl⟩

/-- **Escaped characters.** A character that is escaped cuts a text in two and is read as itself,
whatever the decoding makes of it elsewhere. -/
theorem decode_append_escaped {a written b : String} {c : Char}
    (hc : Escaped written.toList (String.utf8EncodeChar c))
    (h : Decodable d (a ++ written ++ b)) :
    decode d (a ++ written ++ b) = decode d a ++ String.singleton c ++ decode d b := by
  have htext : (a ++ written ++ b).toList = a.toList ++ (written.toList ++ b.toList) := by simp
  have hcut : WellEscaped a.toList ∧ WellEscaped (written.toList ++ b.toList) := by
    have hwell := h.1
    obtain ⟨ds, hds⟩ := exists_percent_of_escaped hc String.utf8EncodeChar_ne_nil
    rw [htext, hds] at hwell
    rw [hds]
    exact (wellEscaped_append_cons_iff (by decide)).mp hwell
  have hmeant : meant d (a ++ written ++ b).toList =
      meant d a.toList ++ (String.utf8EncodeChar c ++ meant d b.toList) := by
    rw [htext, meant_append hcut.1, meant_append_of_escaped hc]
  exact (decode_of_meant_eq h hcut.1 (wellEscaped_append_of_escaped hc hcut.2) hmeant).2.2

end Escaped

/-! ## Joined tokens -/

/-- What a token may decode to: the text whose UTF-8 it means, or if there is none the token. -/
def DecodesTo (d : Decoding) (token value : String) : Prop :=
  (Decodable d token → value.toByteArray = (meant d token.toList).toByteArray) ∧
    (¬ Decodable d token → value = token)

theorem decodesTo_decode (d : Decoding) (token : String) : DecodesTo d token (decode d token) :=
  ⟨toByteArray_decode, decode_of_not_decodable⟩

theorem decode_intercalate {d : Decoding} {ts : List String} (h : ∀ t ∈ ts, Decodable d t) :
    Decodable d ("/".intercalate ts) ∧
      decode d ("/".intercalate ts) = "/".intercalate (ts.map (decode d)) := by
  induction ts with
  | nil =>
    refine ⟨?_, decode_empty d⟩
    cases d <;> decide
  | cons t ts ih =>
    have ht : Decodable d t := h t (by simp)
    obtain ⟨hrest, hjoin⟩ := ih fun u hu => h u (by simp [hu])
    cases ts with
    | nil => simpa using ht
    | cons u us =>
      have hjoined : "/".intercalate (t :: u :: us) =
          t ++ String.singleton '/' ++ "/".intercalate (u :: us) := String.intercalate_cons_cons
      have hslash : decode d (String.singleton '/') = "/" := by cases d <;> decide
      have hc : '/' ≠ '%' := by decide
      have hdigit : hexDigit? '/' = none := by decide
      rw [hjoined, decodable_append_char_iff hc hdigit, decode_append_char hc hdigit ht hrest,
        hslash, hjoin]
      exact ⟨⟨ht, hrest⟩, by simp [String.intercalate_cons_cons]⟩

end Escape

/-- The value that a named rest is bound to. -/
theorem get?_findingsAt_rest {d : Decoding} {segments : List Segment} {tokens : List String}
    {k : Nat} {name : String} {a : Arity} (hs : segments[k]? = some (.param name a))
    (seed : Params) :
    ((findingsAt d segments tokens k).toMatch seed).get? name =
      some ("/".intercalate ((tokens.drop k).map (Escape.decode d))) := by
  rw [Findings.get?_toMatch]
  simp [Findings.last?, findingsAt, hs, Segment.restBinding?]

/-- **Separators.** A character that takes no part in an escape cuts a text in two: it is decodable
exactly if both sides are, and then they decode on their own. So a named rest is bound to the tokens
that are left, joined, each of them decoded if it can be; and if all can be, this is what the joined
tokens decode to. -/
theorem decode_at_separators (d : Decoding) :
    (∀ (a b : String) (c : Char), c ≠ '%' → Text.hexDigit? c = none →
      (Escape.Decodable d (a ++ String.singleton c ++ b) ↔
        Escape.Decodable d a ∧ Escape.Decodable d b) ∧
      (Escape.Decodable d a → Escape.Decodable d b →
        Escape.decode d (a ++ String.singleton c ++ b) =
          Escape.decode d a ++ Escape.decode d (String.singleton c) ++ Escape.decode d b)) ∧
    ∀ (t : Template) (path : String) (seed : Params) (k : Nat) (name : String) (a : Arity),
      t.options.decoding = d → StopsAt t.options t.segments (Path.tokens path) k →
      t.segments[k]? = some (.param name a) →
      ∃ m values, t.resolve path seed = some m ∧ m.get? name = some ("/".intercalate values) ∧
        List.Forall₂ (Escape.DecodesTo d) ((Path.tokens path).drop k) values ∧
        ((∀ token ∈ (Path.tokens path).drop k, Escape.Decodable d token) →
          "/".intercalate values =
            Escape.decode d ("/".intercalate ((Path.tokens path).drop k))) := by
  refine ⟨?_, ?_⟩
  · intro a b c hc hdigit
    exact ⟨Escape.decodable_append_char_iff hc hdigit, Escape.decode_append_char hc hdigit⟩
  · rintro t path seed k name a rfl hk hs
    refine ⟨_, ((Path.tokens path).drop k).map (Escape.decode t.options.decoding),
      Template.resolve_eq_some_iff.mpr ⟨k, hk, rfl⟩, get?_findingsAt_rest hs seed, ?_, ?_⟩
    · rw [List.forall₂_map_right_iff, List.forall₂_same]
      exact fun token _ => Escape.decodesTo_decode _ token
    · intro hall
      exact (Escape.decode_intercalate hall).2.symm

/-- A plus sign cuts a form, and one token that has to be kept leaves the others alone. -/
theorem decode_at_separators_files :
    (Escape.Decodable .form "a%20" ∧ Escape.Decodable .form "%C3%A9" ∧
      Escape.decode .form "a%20+%C3%A9" =
        Escape.decode .form "a%20" ++ Escape.decode .form "+" ++ Escape.decode .form "%C3%A9") ∧
    (∃ m values,
      (Template.ofString "/files/:path+").resolve "/files/test%/file%20one" {} = some m ∧
        m.get? "path" = some ("/".intercalate values) ∧
        List.Forall₂ (Escape.DecodesTo .percent) ["test%", "file%20one"] values) ∧
    (∀ token ∈ ["a%2Fb", "c"], Escape.Decodable .percent token) ∧
    ∃ m, (Template.ofString "/files/:path+").resolve "/files/a%2Fb/c" {} = some m ∧
      m.get? "path" = some (Escape.decode .percent "a%2Fb/c") := by
  have hsegments : (Template.ofString "/files/:path+").segments =
      [.literal "files", .param "path" .oneOrMore] := by decide
  have hstop : ∀ t ts, t ≠ "" →
      StopsAt {} (Template.ofString "/files/:path+").segments ("files" :: t :: ts) 1 := by
    intro t ts ht
    rw [hsegments]
    exact stopsAt_succ.mpr ⟨rfl, stopsAt_zero.mpr ht⟩
  have hdecodable : ∀ token ∈ ["a%2Fb", "c"], Escape.Decodable .percent token := by decide
  refine ⟨⟨by decide, by decide, ?_⟩, ?_, hdecodable, ?_⟩
  · exact ((decode_at_separators .form).1 "a%20" "%C3%A9" '+' (by decide) (by decide)).2
      (by decide) (by decide)
  · obtain ⟨m, values, hm, hvalue, hall, -⟩ := (decode_at_separators .percent).2
      (Template.ofString "/files/:path+") "/files/test%/file%20one" {} 1 "path" .oneOrMore rfl
      (hstop "test%" ["file%20one"] (by decide)) (by decide)
    exact ⟨m, values, hm, hvalue, hall⟩
  · obtain ⟨m, values, hm, hvalue, -, hjoined⟩ := (decode_at_separators .percent).2
      (Template.ofString "/files/:path+") "/files/a%2Fb/c" {} 1 "path" .oneOrMore rfl
      (hstop "a%2Fb" ["c"] (by decide)) (by decide)
    exact ⟨m, hm, by rw [hvalue, hjoined hdecodable]; rfl⟩

end PathTemplate
