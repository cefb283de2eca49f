import PathTemplate.Proofs.Tokens
import PathTemplate.Segment

/-!
The token grammar read backwards. `Readable` says which segments some token reads as
(`ofToken_readable`), and each of them is written as a token that reads as it again
(`ofToken_render`); no other segment reads back from its text (`token_image`). What is written is
never empty, and has no slash unless the segment has one (`isToken_render`).
-/

namespace PathTemplate.Segment

/-! ## Taking a mark off -/

/-- No mark stands at the end. -/
def Unmarked (cs : List Char) : Prop := cs.getLast?.bind Arity.ofMark? = none

theorem unmarked_iff {cs : List Char} :
    Unmarked cs ↔ cs.getLast? ∉ [some '?', some '+', some '*'] := by
  unfold Unmarked
  cases cs.getLast? with
  | none => simp
  | some c =>
    rw [Option.bind_some]
    unfold Arity.ofMark?
    split <;> simp_all

theorem splitMark_of_unmarked {cs : List Char} (h : Unmarked cs) : splitMark cs = (cs, .one) := by
  unfold Unmarked at h
  simp [splitMark, h]

theorem splitMark_concat (cs : List Char) {c : Char} {a : Arity} (h : Arity.ofMark? c = some a) :
    splitMark (cs ++ [c]) = (cs, a) := by
  simp [splitMark, h]

theorem splitMark_cases (cs : List Char) :
    (Unmarked cs ∧ splitMark cs = (cs, .one)) ∨
      ∃ ds c a, cs = ds ++ [c] ∧ Arity.ofMark? c = some a ∧ splitMark cs = (ds, a) := by
  cases h : cs.getLast?.bind Arity.ofMark? with
  | none => exact Or.inl ⟨h, splitMark_of_unmarked h⟩
  | some a =>
    obtain ⟨c, hc, ha⟩ := Option.bind_eq_some_iff.mp h
    obtain ⟨ds, rfl⟩ := List.getLast?_eq_some_iff.mp hc
    exact Or.inr ⟨ds, c, a, rfl, ha, splitMark_concat ds ha⟩

theorem isPrefix_splitMark (cs : List Char) : (splitMark cs).1 <+: cs := by
  rcases splitMark_cases cs with ⟨-, h⟩ | ⟨ds, c, a, rfl, -, h⟩ <;> simp [h]

theorem splitMark_fst_eq_self_iff {cs : List Char} : (splitMark cs).1 = cs ↔ Unmarked cs := by
  rcases splitMark_cases cs with ⟨hu, h⟩ | ⟨ds, c, a, rfl, ha, h⟩
  · simp [h, hu]
  · simp [h, Unmarked, ha]

theorem ofMark?_ne_one {c : Char} {a : Arity} (h : Arity.ofMark? c = some a) : a ≠ .one := by
  rintro rfl
  simp [Arity.ofMark?_eq_some_iff, Arity.mark?] at h

/-! ## Reading -/

theorem ofToken_colon {token : String} {cs : List Char} (h : token.toList = ':' :: cs) :
    ofToken token = ofParamText cs := by
  simp [ofToken, h]

theorem ofToken_plain {token : String} (h : token.toList.head? ≠ some ':') :
    ofToken token = ofPlainText token.toList := by
  unfold ofToken
  split
  · rename_i cs hcs
    simp [hcs] at h
  · rfl

theorem ofParamText_unmarked {cs : List Char} (h : Unmarked cs) :
    ofParamText cs = .param (String.ofList cs) .one := by
  simp [ofParamText, splitMark_of_unmarked h]

theorem ofParamText_concat (cs : List Char) {c : Char} {a : Arity} (h : Arity.ofMark? c = some a) :
    ofParamText (cs ++ [c]) = .param (String.ofList cs) a := by
  simp [ofParamText, splitMark_concat cs h]

theorem ofPlainText_unmarked {cs : List Char} (h : Unmarked cs) :
    ofPlainText cs = .literal (String.ofList cs) := by
  simp [ofPlainText, splitMark_of_unmarked h]

theorem ofPlainText_star (cs : List Char) {c : Char} (h : Arity.ofMark? c = some .zeroOrMore) :
    ofPlainText (cs ++ [c]) = .wildcard (String.ofList cs) := by
  rw [ofPlainText, splitMark_concat cs h]

theorem ofPlainText_concat (cs : List Char) {c : Char} {a : Arity} (h : Arity.ofMark? c = some a)
    (ha : a ≠ .zeroOrMore) : ofPlainText (cs ++ [c]) = .literal (String.ofList cs) := by
  rw [ofPlainText, splitMark_concat cs h]
  cases a <;> first | rfl | exact absurd rfl ha

theorem head?_of_head?_concat {cs : List Char} {c : Char} (h : (cs ++ [c]).head? ≠ some ':') :
    cs.head? ≠ some ':' := by
  cases cs with
  | nil => simp
  | cons d ds => simpa using h

theorem head?_concat {cs : List Char} {c : Char} (h : cs.head? ≠ some ':') (hc : c ≠ ':') :
    (cs ++ [c]).head? ≠ some ':' := by
  cases cs with
  | nil => simpa using hc
  | cons d ds => simpa using h

/-! ## Segments that tokens read as -/

/-- A text without a colon in front, or a parameter. Without a mark after it, the name of a
parameter does not end in one. -/
def Readable : Segment → Prop
  | literal text => text.toList.head? ≠ some ':'
  | wildcard lead => lead.toList.head? ≠ some ':'
  | param name .one => Unmarked name.toList
  | param _ _ => True

theorem ofParamText_readable (cs : List Char) : (ofParamText cs).Readable := by
  rcases splitMark_cases cs with ⟨hu, -⟩ | ⟨ds, c, a, rfl, ha, -⟩
  · simpa [ofParamText_unmarked hu, Readable] using hu
  · rw [ofParamText_concat ds ha]
    have hne := ofMark?_ne_one ha
    cases a with
    | one => exact absurd rfl hne
    | zeroOrOne | oneOrMore | zeroOrMore => trivial

theorem ofPlainText_readable {cs : List Char} (h : cs.head? ≠ some ':') :
    (ofPlainText cs).Readable := by
  rcases splitMark_cases cs with ⟨hu, -⟩ | ⟨ds, c, a, rfl, ha, -⟩
  · simpa [ofPlainText_unmarked hu, Readable] using h
  · have hds := head?_of_head?_concat h
    by_cases hs : a = .zeroOrMore
    · simpa [ofPlainText_star ds (hs ▸ ha), Readable] using hds
    · simpa [ofPlainText_concat ds ha hs, Readable] using hds

theorem ofToken_readable (token : String) : (ofToken token).Readable := by
  cases h : token.toList with
  | nil =>
    rw [ofToken_plain (by simp [h])]
    exact ofPlainText_readable (by simp [h])
  | cons c cs =>
    by_cases hc : c = ':'
    · rw [ofToken_colon (hc ▸ h)]
      exact ofParamText_readable cs
    · rw [ofToken_plain (by simp [h, hc])]
      exact ofPlainText_readable (by simp [h, hc])

/-! ## Writing -/

theorem unmarked_of_needsMark {text : String} (h : needsMark text = false) :
    Unmarked text.toList := by
  unfold needsMark at h
  unfold Unmarked
  split at h <;> simp_all

theorem ofToken_render_literal {text : String} (h : text.toList.head? ≠ some ':') :
    ofToken (literal text).render = .literal text := by
  have hq : Arity.ofMark? '?' = some .zeroOrOne := rfl
  cases hm : needsMark text with
  | true =>
    have hr : (literal text).render.toList = text.toList ++ ['?'] := by simp [render, hm]
    have hhead : (literal text).render.toList.head? ≠ some ':' := by
      rw [hr]
      exact head?_concat h (by decide)
    rw [ofToken_plain hhead, hr, ofPlainText_concat _ hq (by simp), String.ofList_toList]
  | false =>
    have hr : (literal text).render = text := by simp [render, hm]
    rw [hr, ofToken_plain h, ofPlainText_unmarked (unmarked_of_needsMark hm), String.ofList_toList]

theorem ofToken_render_wildcard {lead : String} (h : lead.toList.head? ≠ some ':') :
    ofToken (wildcard lead).render = .wildcard lead := by
  have hr : (wildcard lead).render.toList = lead.toList ++ ['*'] := by simp [render]
  have hhead : (wildcard lead).render.toList.head? ≠ some ':' := by
    rw [hr]
    exact head?_concat h (by decide)
  rw [ofToken_plain hhead, hr, ofPlainText_star _ rfl, String.ofList_toList]

theorem ofToken_render_param_one {name : String} (h : Unmarked name.toList) :
    ofToken (param name .one).render = .param name .one := by
  have hr : (param name .one).render.toList = ':' :: name.toList := by
    simp [render, Arity.suffix, Arity.mark?]
  rw [ofToken_colon hr, ofParamText_unmarked h, String.ofList_toList]

theorem ofToken_render_param_mark (name : String) {a : Arity} {c : Char} (h : a.mark? = some c) :
    ofToken (param name a).render = .param name a := by
  have hr : (param name a).render.toList = ':' :: (name.toList ++ [c]) := by
    simp [render, Arity.suffix, h]
  rw [ofToken_colon hr, ofParamText_concat _ (Arity.ofMark?_eq_some_iff.mpr h),
    String.ofList_toList]

/-- **Round trip.** A segment that some token reads as is written as such a token. -/
theorem ofToken_render {s : Segment} (h : s.Readable) : ofToken s.render = s := by
  cases s with
  | literal text => exact ofToken_render_literal h
  | wildcard lead => exact ofToken_render_wildcard h
  | param name a =>
    cases a with
    | one => exact ofToken_render_param_one h
    | zeroOrOne => exact ofToken_render_param_mark name rfl
    | oneOrMore => exact ofToken_render_param_mark name rfl
    | zeroOrMore => exact ofToken_render_param_mark name rfl

theorem render_ne_empty (s : Segment) : s.render ≠ "" := by
  cases s with
  | literal text =>
    cases hm : needsMark text with
    | true => simp [render, hm]
    | false =>
      rintro he
      have ht : text = "" := by simpa [render, hm] using he
      subst ht
      exact absurd hm (by decide)
  | wildcard lead => simp [render]
  | param name a => simp [render]

/-! ## What reads back -/

theorem exists_token_iff {s : Segment} : (∃ token, s = ofToken token) ↔ s.Readable := by
  constructor
  · rintro ⟨token, rfl⟩
    exact ofToken_readable token
  · intro h
    exact ⟨s.render, (ofToken_render h).symm⟩

theorem readable_iff {s : Segment} :
    s.Readable ↔
      (∃ text : String, text.toList.head? ≠ some ':' ∧ (s = literal text ∨ s = wildcard text)) ∨
      (∃ name : String, name.toList.getLast? ∉ [some '?', some '+', some '*'] ∧
        s = param name .one) ∨
      ∃ name, ∃ a ∈ [Arity.zeroOrOne, .oneOrMore, .zeroOrMore], s = param name a := by
  cases s with
  | literal text => simp [Readable]
  | wildcard lead => simp [Readable]
  | param name a => cases a <;> simp [Readable, unmarked_iff]

/-- **The image of the grammar.** A segment reads back from its text exactly if some token reads as
it, and the text or name that it holds tells whether one does. No segment is written as the empty
text. -/
theorem token_image (s : Segment) :
    (ofToken s.render = s ↔ ∃ token, s = ofToken token) ∧
    ((∃ token, s = ofToken token) ↔
      (∃ text : String, text.toList.head? ≠ some ':' ∧ (s = literal text ∨ s = wildcard text)) ∨
      (∃ name : String, name.toList.getLast? ∉ [some '?', some '+', some '*'] ∧
        s = param name .one) ∨
      ∃ name, ∃ a ∈ [Arity.zeroOrOne, .oneOrMore, .zeroOrMore], s = param name a) ∧
    (∀ token, ofToken (ofToken token).render = ofToken token) ∧
    s.render ≠ "" := by
  refine ⟨?_, exists_token_iff.trans readable_iff, ?_, render_ne_empty s⟩
  · constructor
    · intro h
      exact ⟨s.render, h.symm⟩
    · intro h
      exact ofToken_render (exists_token_iff.mp h)
  · intro token
    exact ofToken_render (ofToken_readable token)

/-- A name that ends in a mark loses it, unless another mark follows. -/
example : ofToken (param "a*" .one).render = param "a" .zeroOrMore ∧
    ofToken (param "a*" .zeroOrOne).render = param "a*" .zeroOrOne := by decide

/-! ## No slash is added -/

/-- The text of a segment, without colon and mark. -/
def text : Segment → String
  | literal text => text
  | wildcard lead => lead
  | param name _ => name

@[simp]
theorem text_ofParamText (cs : List Char) :
    (ofParamText cs).text = String.ofList (splitMark cs).1 := rfl

@[simp]
theorem text_ofPlainText (cs : List Char) :
    (ofPlainText cs).text = String.ofList (splitMark cs).1 := by
  unfold ofPlainText
  split <;> rename_i h <;> rw [h] <;> rfl

/-- Reading a token adds no character. -/
theorem text_ofToken_subset (token : String) : (ofToken token).text.toList ⊆ token.toList := by
  unfold ofToken
  split
  · rename_i cs hcs
    rw [hcs, text_ofParamText, String.toList_ofList]
    exact List.subset_cons_of_subset ':' (isPrefix_splitMark cs).subset
  · rw [text_ofPlainText, String.toList_ofList]
    exact (isPrefix_splitMark _).subset

theorem slash_not_mem_render {s : Segment} (h : '/' ∉ s.text.toList) : '/' ∉ s.render.toList := by
  cases s with
  | literal t =>
    simp only [text] at h
    cases hm : needsMark t <;> simp [render, hm, h]
  | wildcard lead => simpa [render, text] using h
  | param name a =>
    have hs : '/' ∉ a.suffix.toList := by cases a <;> decide
    simp only [text] at h
    simp [render, h, hs]

theorem isToken_render {token : String} (h : Path.IsToken token) :
    Path.IsToken (ofToken token).render :=
  ⟨render_ne_empty _, slash_not_mem_render fun hm => h.2 (text_ofToken_subset token hm)⟩

end PathTemplate.Segment
