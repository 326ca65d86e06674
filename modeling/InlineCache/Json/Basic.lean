namespace InlineCache

/-- JSON values, as far as encoded units tell them apart. Of numbers only whole numbers carry a value. A
string is absent when its escapes leave half of a surrogate pair alone; such a string is harmless in a
place that nobody reads. -/
inductive Json where
  | null
  | bool (value : Bool)
  | integer (value : Int)
  /-- A number with a fraction or an exponent, or a negative zero. -/
  | otherNumber
  | string (text : Option String)
  | array (items : List Json)
  | object (members : List (Option String × Json))
deriving Inhabited

namespace Json

def text (s : String) : Json := .string (some s)

/-- An object of members whose names are texts. -/
def record (members : List (String × Json)) : Json :=
  .object (members.map fun (name, value) => (some name, value))

def natural (n : Nat) : Json := .integer n

def integer? : Json → Option Int
  | .integer n => some n
  | _ => none

def natural? : Json → Option Nat
  | .integer (.ofNat n) => some n
  | _ => none

/-- A natural number below a limit. -/
def below? (limit : Nat) (j : Json) : Option Nat :=
  j.natural?.filter (· < limit)

def bool? : Json → Option Bool
  | .bool b => some b
  | _ => none

def text? : Json → Option String
  | .string s => s
  | _ => none

def array? : Json → Option (List Json)
  | .array items => some items
  | _ => none

/-- The first member of a record with this name, if there is one. -/
def find? (j : Json) (name : String) : Option Json :=
  match j with
  | .object members => (members.find? (·.1 == some name)).map (·.2)
  | _ => none

/-- The first member of a record with this name; a missing member counts as `null`. -/
def get (j : Json) (name : String) : Json := (j.find? name).getD .null

/-- The items of an array; anything else has none. -/
def items (j : Json) : List Json := j.array?.getD []

/-- The one member with this name; none if there is no such member, or more than one. -/
def member? (name : String) (members : List (Option String × Json)) : Option Json :=
  match members.filter fun m => m.1 = some name with
  | [m] => some m.2
  | _ => none

/-- The values of named fields, in the order of the names. A record gives each field once and may
have other members, whose names must be texts; a list gives exactly the fields, in order. -/
def fields? (names : List String) : Json → Option (List Json)
  | .array items => if items.length = names.length then some items else none
  | .object members =>
    if members.all (·.1.isSome) then names.mapM (member? · members) else none
  | _ => none

/-- A choice among named alternatives: the name alone, or the name with its content. -/
def choice? : Json → Option (String × Option Json)
  | .string (some name) => some (name, none)
  | .object [(some name, content)] => some (name, some content)
  | _ => none

end Json

end InlineCache
