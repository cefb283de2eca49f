/-!
Slash-separated paths. A path is read as its tokens, the nonempty pieces between slashes, so
leading, trailing and repeated slashes carry no meaning. Each token list has one written form,
and `normalForm` leaves a path alone exactly when three tests on its characters say that it is
in that form already.
-/

namespace PathTemplate.Path

/-- The pieces between slashes, empty ones included. -/
def pieces : List Char → List (List Char)
  | [] => [[]]
  | c :: rest =>
    if c = '/' then [] :: pieces rest else (pieces rest).modifyHead (c :: ·)

theorem pieces_ne_nil (cs : List Char) : pieces cs ≠ [] := by
  induction cs with
  | nil => simp [pieces]
  | cons c rest ih =>
    by_cases hc : c = '/'
    · simp [pieces, hc]
    · simpa [pieces, hc] using ih

theorem pieces_append_slash (as bs : List Char) :
    pieces (as ++ '/' :: bs) = pieces as ++ pieces bs := by
  induction as with
  | nil => simp [pieces]
  | cons c rest ih =>
    by_cases hc : c = '/'
    · simp [pieces, hc, ih]
    · cases h : pieces rest with
      | nil => exact absurd h (pieces_ne_nil rest)
      | cons p ps => simp [pieces, hc, ih, h]

/-- No piece has a slash in it. -/
theorem slash_not_mem {cs p : List Char} (hp : p ∈ pieces cs) : '/' ∉ p := by
  induction cs generalizing p with
  | nil => simp_all [pieces]
  | cons c rest ih =>
    by_cases hc : c = '/'
    · simp only [pieces, hc, if_true, List.mem_cons] at hp
      rcases hp with rfl | hp
      · simp
      · exact ih hp
    · cases h : pieces rest with
      | nil => exact absurd h (pieces_ne_nil rest)
      | cons q qs =>
        simp only [pieces, hc, if_false, h, List.modifyHead_cons, List.mem_cons] at hp
        rcases hp with rfl | hp
        · have hq : '/' ∉ q := ih (by simp [h])
          simp [hq, Ne.symm hc]
        · exact ih (by simp [h, hp])

theorem pieces_of_slash_not_mem {cs : List Char} (h : '/' ∉ cs) : pieces cs = [cs] := by
  induction cs with
  | nil => rfl
  | cons c rest ih =>
    simp only [List.mem_cons, not_or] at h
    simp [pieces, Ne.symm h.1, ih h.2]

def tokens (path : String) : List String :=
  ((pieces path.toList).filter (· ≠ [])).map String.ofList

/-- A slash before each token; no token at all is the root. -/
def ofTokens : List String → String
  | [] => "/"
  | ts => ts.foldr (fun t rest => "/" ++ t ++ rest) ""

/-- Two slashes stand side by side somewhere. -/
def hasDoubleSlash : List Char → Bool
  | '/' :: '/' :: _ => true
  | _ :: rest => hasDoubleSlash rest
  | [] => false

/-- A normal path starts with a slash, has no two slashes side by side and, the root apart, does
not end with one. -/
def isNormal (path : String) : Bool :=
  let cs := path.toList
  cs.head? == some '/' && !hasDoubleSlash cs && (cs == ['/'] || cs.getLast? != some '/')

def normalForm (path : String) : String :=
  if isNormal path then path else ofTokens (tokens path)

end PathTemplate.Path
