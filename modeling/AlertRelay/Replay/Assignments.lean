import AlertRelay.Table
import AlertRelay.Text.Character

/-! Files that assign values to variables of the environment, one on a line. A
value may be quoted, escaped, followed by a comment, and contain the values of
other variables. A null character in a value is no fault of the file, but the
environment cannot take it. -/

namespace AlertRelay

/-- How the variable that is being read inside a value is written: there is
none, or its name follows a dollar sign, bare or in braces. -/
inductive Substitution
  | none
  | plain
  | braced
deriving DecidableEq, Repr

/-- A value while it is read; characters are latest first. -/
structure ValueReader where
  output : List Char := []
  strong : Bool := false
  weak : Bool := false
  escaped : Bool := false
  ending : Bool := false
  stopped : Bool := false
  substitution : Substitution := .none
  name : List Char := []

/-- Writes the value of the variable whose name has been read. -/
def ValueReader.substitute (r : ValueReader) (value : String → String) : ValueReader :=
  { r with
    output := (value (String.ofList r.name.reverse)).toList.reverse ++ r.output
    name := []
    substitution := .none }

def ValueReader.write (r : ValueReader) (c : Char) : ValueReader :=
  { r with output := c :: r.output }

/-- A character inside the name of a variable, or the one after it. -/
def ValueReader.substitutionStep (r : ValueReader) (value : String → String) (c : Char) :
    ValueReader :=
  if isAlphanumeric c then { r with name := c :: r.name }
  else
    match r.substitution with
    | .braced => if c = '\x7d' then r.substitute value else { r with name := c :: r.name }
    | _ =>
      if c = '\x7b' && r.name.isEmpty then { r with substitution := .braced }
      else if c = '$' then { r.substitute value with substitution := .plain }
      else (r.substitute value).write c

/-- Reads a character; none if the value is not well formed. -/
def ValueReader.step (value : String → String) (r : ValueReader) (c : Char) : Option ValueReader :=
  if r.stopped then some r
  else if r.ending then
    if c = ' ' || c = '\t' then some r
    else if c = '#' then some { r with stopped := true }
    else none
  else if r.escaped then
    if c = '\\' || c = '\'' || c = '"' || c = '$' || c = ' ' then
      some { r.write c with escaped := false }
    else if c = 'n' then some { r.write '\n' with escaped := false }
    else none
  else if r.strong then
    if c = '\'' then some { r with strong := false } else some (r.write c)
  else if r.substitution ≠ .none then some (r.substitutionStep value c)
  else if c = '$' then some { r with substitution := .plain }
  else if r.weak then
    if c = '"' then some { r with weak := false }
    else if c = '\\' then some { r with escaped := true }
    else some (r.write c)
  else if c = '\'' then some { r with strong := true }
  else if c = '"' then some { r with weak := true }
  else if c = '\\' then some { r with escaped := true }
  else if c = ' ' || c = '\t' then some { r with ending := true }
  else some (r.write c)

/-- Reads a value, given the values of other variables. -/
def readValue? (value : String → String) (cs : List Char) : Option String :=
  match cs.foldlM (ValueReader.step value) {} with
  | none => none
  | some r =>
    if r.substitution = .braced || r.strong || r.weak then none
    else some (String.ofList (r.substitute value).output.reverse)

/-- What a line says. -/
inductive AssignmentLine
  | blank
  | assign (name : String) (value : List Char)
  | bad

def skipBlanks (cs : List Char) : List Char := cs.dropWhile isBlank

def isNameStart (c : Char) : Bool := c.isAlpha || c = '_'

def isNameChar (c : Char) : Bool := c.isAlphanum || c = '_' || c = '.'

/-- A name and what follows it and the blanks after it. -/
def readVariableName? (cs : List Char) : Option (List Char × List Char) :=
  match cs with
  | [] => none
  | c :: _ =>
    if isNameStart c then some (cs.takeWhile isNameChar, skipBlanks (cs.dropWhile isNameChar))
    else none

/-- The equals sign and the blanks after it are left out. -/
def afterEquals (name : List Char) (cs : List Char) : AssignmentLine :=
  match cs with
  | '=' :: rest => .assign (String.ofList name) (skipBlanks rest)
  | _ => .bad

/-- Reads a line; the word `export` may stand before the name. -/
def AssignmentLine.ofChars (line : List Char) : AssignmentLine :=
  let cs := skipBlanks (line.reverse.dropWhile isBlank).reverse
  if cs.isEmpty || cs.head? = some '#' then .blank
  else
    match readVariableName? cs with
    | none => .bad
    | some (name, rest) =>
      if name = "export".toList && rest.head? ≠ some '=' then
        match readVariableName? rest with
        | none => .bad
        | some (name, rest) => afterEquals name rest
      else afterEquals name rest

/-- What follows these characters at the front of a text. -/
def afterFront? : List Char → List Char → Option (List Char)
  | [], cs => some cs
  | _ :: _, [] => none
  | x :: front, c :: cs => if x = c then afterFront? front cs else none

theorem afterFront?_eq_some_iff {front cs rest : List Char} :
    afterFront? front cs = some rest ↔ cs = front ++ rest := by
  induction front generalizing cs with
  | nil => simp [afterFront?]
  | cons x front ih =>
    cases cs with
    | nil => simp [afterFront?]
    | cons c cs =>
      by_cases h : x = c
      · simp [afterFront?, h, ih]
      · simp [afterFront?, h, Ne.symm h]

/-- The value that the environment has for a name. It is looked for in texts of
the form `NAME=VALUE`, so that a name may run into the value up to an equals
sign there: where `A` is `B=7`, the value of `A=B` is `7`. -/
def environmentValue? (environment : Table String) (name : String) : Option String :=
  if name.isEmpty then none
  else environment.findSome? fun e =>
    (afterFront? (name ++ "=").toList (e.1 ++ "=" ++ e.2).toList).map String.ofList

/-- The environment, and the values that the lines so far have given. -/
structure AssignmentState where
  environment : Table String
  given : Table String := []
  stopped : Bool := false

/-- The value of a variable: from the environment, else from the lines before. -/
def AssignmentState.value (s : AssignmentState) (name : String) : String :=
  ((environmentValue? s.environment name).orElse fun _ => s.given.get? name).getD ""

/-- A variable that is set keeps its value in the environment. There is no result if the
environment cannot take the value. -/
def AssignmentState.assign (s : AssignmentState) (name value : String) : Option AssignmentState :=
  if !s.environment.has name && value.toList.contains '\x00' then none
  else some { s with
    environment := s.environment.insertNew name value
    given := (s.given.filter fun e => e.1 ≠ name) ++ [(name, value)] }

/-- Loads a line; the first bad one ends the file. -/
def AssignmentState.load (s : AssignmentState) (line : String) : Option AssignmentState :=
  if s.stopped then some s
  else
    match AssignmentLine.ofChars line.toList with
    | .blank => some s
    | .bad => some { s with stopped := true }
    | .assign name cs =>
      if cs.isEmpty || cs.head? = some '#' then s.assign name ""
      else
        match readValue? s.value cs with
        | some value => s.assign name value
        | none => some { s with stopped := true }

/-- The environment after loading the lines of a file. -/
def loadAssignments (environment : Table String) (lines : List String) : Option (Table String) :=
  (lines.foldlM AssignmentState.load { environment := environment }).map (·.environment)

end AlertRelay
