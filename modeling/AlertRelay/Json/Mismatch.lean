import AlertRelay.Decimal.FloatText
import AlertRelay.Json.Value
import AlertRelay.Text.Quoted

/-! What can be wrong with a JSON value that is to be read as something else,
and the words for it. -/

namespace AlertRelay

/-- What a message says was found. -/
inductive Found
  | null
  | bool (b : Bool)
  | int (n : Int)
  | float (x : Float)
  | text (s : String)
  | sequence
  | map

def Found.describe : Found → String
  | .null => "null"
  | .bool b => "boolean `" ++ (if b then "true" else "false") ++ "`"
  | .int n => "integer `" ++ toString n ++ "`"
  | .float x => "floating point `" ++ floatText x ++ "`"
  | .text s => "string " ++ quoted s
  | .sequence => "sequence"
  | .map => "map"

def Json.found : Json → Found
  | .null => .null
  | .bool b => .bool b
  | .int n => .int n
  | .float x => .float x
  | .text s => .text s
  | .array _ => .sequence
  | .object _ => .map

/-- A record type: its name and how many fields it has. -/
structure RecordShape where
  name : String
  size : Nat
deriving DecidableEq, Repr

/-- What a message says was expected. -/
inductive Expected
  | text
  | real
  | signed
  | size
  | seconds
  | unit
  | map
  | variant
  | singleKey
  | fewerElements
  | record (shape : RecordShape)
  | elements (shape : RecordShape)

def Expected.describe : Expected → String
  | .text => "a string"
  | .real => "f64"
  | .signed => "i64"
  | .size => "usize"
  | .seconds => "u64"
  | .unit => "unit"
  | .map => "a map"
  | .variant => "string or map"
  | .singleKey => "map with a single key"
  | .fewerElements => "fewer elements in array"
  | .record shape => "struct " ++ shape.name
  | .elements shape => "struct " ++ shape.name ++ " with " ++ toString shape.size ++ " elements"

/-- Why a well-formed value does not have the expected form. -/
inductive Mismatch
  | wrongType (found : Found) (expected : Expected)
  | wrongValue (found : Found) (expected : Expected)
  | wrongLength (length : Nat) (expected : Expected)
  | missingField (name : String)
  | duplicateField (name : String)
  | unknownVariant (name : String) (known : List String)

/-- Names in backquotes with "or" between them. -/
def alternatives (names : List String) : String :=
  " or ".intercalate (names.map fun n => "`" ++ n ++ "`")

def Mismatch.message : Mismatch → String
  | .wrongType f e => "invalid type: " ++ f.describe ++ ", expected " ++ e.describe
  | .wrongValue f e => "invalid value: " ++ f.describe ++ ", expected " ++ e.describe
  | .wrongLength n e => "invalid length " ++ toString n ++ ", expected " ++ e.describe
  | .missingField n => "missing field `" ++ n ++ "`"
  | .duplicateField n => "duplicate field `" ++ n ++ "`"
  | .unknownVariant n known => "unknown variant `" ++ n ++ "`, expected " ++ alternatives known

/-- Why a text was not read: it is no JSON, or it does not have the expected form. -/
inductive ReadError
  | malformed
  | mismatch (m : Mismatch)

def ReadError.message : ReadError → String
  | .malformed => "<syntax>"
  | .mismatch m => m.message

end AlertRelay
