/-! Regular expressions over characters, with a matcher that follows all ways
to read a text at once. The states of the matcher are the expressions that are
still to be matched; equal ones are kept once, so their number stays small. -/

namespace AlertRelay

inductive CharClass
  | exactly (c : Char)
  | allBut (c : Char)
deriving DecidableEq, Repr

def CharClass.has : CharClass → Char → Bool
  | .exactly x, c => c = x
  | .allBut x, c => c ≠ x

inductive Regex
  | empty
  | one (set : CharClass)
  | cat (first second : Regex)
  | star (body : Regex)
deriving DecidableEq, Repr

/-- The texts of an expression. -/
inductive Regex.Matches : Regex → List Char → Prop
  | empty : Matches .empty []
  | one {set : CharClass} {c : Char} : set.has c = true → Matches (.one set) [c]
  | cat {a b : Regex} {s t : List Char} : Matches a s → Matches b t → Matches (.cat a b) (s ++ t)
  | stop {a : Regex} : Matches (.star a) []
  | again {a : Regex} {s t : List Char} :
      Matches a s → Matches (.star a) t → Matches (.star a) (s ++ t)

/-- One after the other. -/
def Regex.sequence (parts : List Regex) : Regex := parts.foldr .cat .empty

/-- Whether the empty text belongs to an expression. -/
def Regex.nullable : Regex → Bool
  | .empty | .star _ => true
  | .one _ => false
  | .cat a b => a.nullable && b.nullable

/-- What may be left to match after a first character. -/
def Regex.after (c : Char) : Regex → List Regex
  | .empty => []
  | .one set => if set.has c then [.empty] else []
  | .cat a b =>
    let left := (a.after c).map fun r => if r = .empty then b else .cat r b
    if a.nullable then left ++ b.after c else left
  | .star a => (a.after c).map fun r => .cat r (.star a)

/-- The states after a character. -/
def Regex.advance (states : List Regex) (c : Char) : List Regex :=
  (states.flatMap (Regex.after c)).eraseDups

/-- Whether a whole text matches. -/
def Regex.accepts (r : Regex) (text : List Char) : Bool :=
  (text.foldl Regex.advance [r]).any Regex.nullable

end AlertRelay
