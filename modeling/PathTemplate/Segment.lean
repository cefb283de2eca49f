/-!
The token grammar of templates. A leading colon makes a token a parameter, and one mark at its end
says how many path tokens the parameter takes. Without a colon a final `*` makes a wildcard, and
any other mark is dropped. Main functions: `Segment.ofToken` reads a token and `Segment.render`
writes one that reads back.
-/

namespace PathTemplate

/-- How many path tokens a parameter takes. -/
inductive Arity
  | one
  | zeroOrOne
  | oneOrMore
  | zeroOrMore
deriving DecidableEq, Repr

inductive Presence
  | required
  | optional
deriving DecidableEq, Repr

namespace Arity

def mark? : Arity → Option Char
  | one => none
  | zeroOrOne => some '?'
  | oneOrMore => some '+'
  | zeroOrMore => some '*'

def ofMark? : Char → Option Arity
  | '?' => some zeroOrOne
  | '+' => some oneOrMore
  | '*' => some zeroOrMore
  | _ => none

/-- Reading a mark undoes writing it. -/
theorem ofMark?_eq_some_iff {c : Char} {a : Arity} :
    ofMark? c = some a ↔ a.mark? = some c := by
  constructor
  · intro h
    unfold ofMark? at h
    split at h <;> simp_all [mark?] <;> subst h <;> rfl
  · intro h
    cases a <;> simp_all [mark?] <;> subst h <;> rfl

def acceptsNone : Arity → Bool
  | one | oneOrMore => false
  | zeroOrOne | zeroOrMore => true

def takesRest : Arity → Bool
  | one | zeroOrOne => false
  | oneOrMore | zeroOrMore => true

def presence (a : Arity) : Presence :=
  if a.acceptsNone then .optional else .required

/-- The mark as text, nothing for `one`. -/
def suffix (a : Arity) : String := a.mark?.elim "" String.singleton

end Arity

inductive Segment
  | literal (text : String)
  | wildcard (lead : String)
  | param (name : String) (arity : Arity)
deriving DecidableEq, Repr

namespace Segment

/-- Takes one mark off the end, if there is one. -/
def splitMark (cs : List Char) : List Char × Arity :=
  match cs.getLast?.bind Arity.ofMark? with
  | some a => (cs.dropLast, a)
  | none => (cs, .one)

/-- A token after its colon. -/
def ofParamText (cs : List Char) : Segment :=
  match splitMark cs with
  | (name, a) => .param (String.ofList name) a

/-- A token without a colon. -/
def ofPlainText (cs : List Char) : Segment :=
  match splitMark cs with
  | (lead, .zeroOrMore) => .wildcard (String.ofList lead)
  | (text, _) => .literal (String.ofList text)

def ofToken (token : String) : Segment :=
  match token.toList with
  | ':' :: cs => ofParamText cs
  | cs => ofPlainText cs

/-- A literal that is empty or ends in a mark would lose it when read, so it is given one more. -/
def needsMark (text : String) : Bool :=
  match text.toList.getLast? with
  | none => true
  | some c => (Arity.ofMark? c).isSome

def render : Segment → String
  | literal text => if needsMark text then text ++ "?" else text
  | wildcard lead => lead ++ "*"
  | param name a => ":" ++ name ++ a.suffix

def isWildcard : Segment → Bool
  | wildcard _ => true
  | _ => false

/-- The segment that stands where a template has none. -/
def blank : Segment := .literal ""

end Segment
end PathTemplate
