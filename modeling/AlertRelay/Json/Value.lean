/-! JSON values. The members of an object that was read are in ascending order
of their names, and no name occurs twice. -/

namespace AlertRelay

inductive Json
  | null
  | bool (b : Bool)
  | int (n : Int)
  | float (x : Float)
  | text (s : String)
  | array (items : List Json)
  | object (members : List (String × Json))

/-- The value of the member with this name. -/
def memberValue? (members : List (String × Json)) (name : String) : Option Json :=
  members.lookup name

/-- Adds a member in its place, unless the name is taken. -/
def insertMember (name : String) (value : Json) :
    List (String × Json) → List (String × Json)
  | [] => [(name, value)]
  | (n, v) :: rest =>
    if name < n then (name, value) :: (n, v) :: rest
    else if name = n then (n, v) :: rest
    else (n, v) :: insertMember name value rest

/-- Members in ascending order of their names; of equal names the last one counts. -/
def orderMembers (members : List (String × Json)) : List (String × Json) :=
  members.foldr (fun m acc => insertMember m.1 m.2 acc) []

/-- A member of an object; other values have none. -/
def Json.get? : Json → String → Option Json
  | .object members, name => memberValue? members name
  | _, _ => none

end AlertRelay
