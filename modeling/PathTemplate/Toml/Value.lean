import PathTemplate.Number.Binary64

/-!
The values of a TOML document. A table keeps its entries in the order of the document, and how it
came into being, since that decides what may be added to it later.
-/

namespace PathTemplate.Toml

/-- A table is opened by a header of its own, implied by a longer header, made by a dotted key, or
written in braces. -/
inductive Origin
  | header
  | implied
  | dotted
  | braced
deriving DecidableEq, Repr

/-- `tables` is an array that headers in double brackets build up, a table a header. Of dates and
times only the kind is kept. -/
inductive Value
  | string (s : String)
  | integer (i : Int)
  | float (x : Binary64)
  | boolean (b : Bool)
  | dateTime
  | array (items : List Value)
  | table (origin : Origin) (entries : List (String × Value))
  | tables (items : List (List (String × Value)))

abbrev Entries := List (String × Value)

/-! ## Equality -/

mutual

def Value.decEq (v w : Value) : Decidable (v = w) :=
  if h : v.ctorIdx = w.ctorIdx then
    match v, w, h with
    | .string s, .string s', _ => decidable_of_iff (s = s') (by simp)
    | .integer i, .integer i', _ => decidable_of_iff (i = i') (by simp)
    | .float x, .float x', _ => decidable_of_iff (x = x') (by simp)
    | .boolean b, .boolean b', _ => decidable_of_iff (b = b') (by simp)
    | .dateTime, .dateTime, _ => isTrue rfl
    | .array items, .array items', _ =>
      have := decEqItems items items'
      decidable_of_iff (items = items') (by simp)
    | .table origin es, .table origin' es', _ =>
      have := decEqEntries es es'
      decidable_of_iff (origin = origin' ∧ es = es') (by simp)
    | .tables items, .tables items', _ =>
      have := decEqTables items items'
      decidable_of_iff (items = items') (by simp)
  else isFalse fun heq => h (congrArg Value.ctorIdx heq)

def decEqItems : (items items' : List Value) → Decidable (items = items')
  | [], [] => isTrue rfl
  | [], _ :: _ | _ :: _, [] => isFalse nofun
  | v :: items, v' :: items' =>
    have := v.decEq v'
    have := decEqItems items items'
    decidable_of_iff (v = v' ∧ items = items') (by simp)

def decEqEntries : (es es' : List (String × Value)) → Decidable (es = es')
  | [], [] => isTrue rfl
  | [], _ :: _ | _ :: _, [] => isFalse nofun
  | (key, v) :: es, (key', v') :: es' =>
    have := v.decEq v'
    have := decEqEntries es es'
    decidable_of_iff ((key = key' ∧ v = v') ∧ es = es') (by simp)

def decEqTables : (items items' : List (List (String × Value))) → Decidable (items = items')
  | [], [] => isTrue rfl
  | [], _ :: _ | _ :: _, [] => isFalse nofun
  | es :: items, es' :: items' =>
    have := decEqEntries es es'
    have := decEqTables items items'
    decidable_of_iff (es = es' ∧ items = items') (by simp)

end

instance : DecidableEq Value := Value.decEq

end PathTemplate.Toml
