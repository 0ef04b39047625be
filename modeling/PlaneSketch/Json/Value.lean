import PlaneSketch.Decimal.Literal
import PlaneSketch.Hexadecimal

/-!
# JSON values

JSON data with fields in order of appearance and numbers as decimal literals.

* `Json.ofFields`: an object with given names.
* `Json.record?`: the fields of a structure, given as an object or as an array.
* `Json.render`: compact text.

A string with an escape for half of a surrogate pair stands for no text.  It may occur where it is
passed over: as a value (`Json.brokenText`) and as a name, which is then none.
-/

namespace PlaneSketch

/-- A JSON value. -/
inductive Json where
  | null
  | bool (b : Bool)
  | number (n : Decimal.Literal)
  | text (s : String)
  /-- A string that stands for no text. -/
  | brokenText
  | array (items : List Json)
  | object (fields : List (Option String × Json))
deriving Repr

namespace Json

def ofNat (n : Nat) : Json := number (.ofNat n)

/-- The object with fields under the given names. -/
def ofFields (fields : List (String × Json)) : Json :=
  object (fields.map fun (name, j) => (some name, j))

/-! ## Reading parts -/

def text? : Json → Option String
  | text s => some s
  | _ => none

def bool? : Json → Option Bool
  | bool b => some b
  | _ => none

def array? : Json → Option (List Json)
  | array items => some items
  | _ => none

/-- A float, from any number within their range. -/
def float? : Json → Option Float
  | number n => n.toFinite?
  | _ => none

/-- A natural number of up to 64 bits, from plain digits. -/
def word? : Json → Option Nat
  | number n => n.toWord?
  | _ => none

/-- The first field of a name. -/
def field? (name : String) : Json → Option Json
  | object fields => fields.lookup (some name)
  | _ => none

/-- The only value under a name among fields, none if it is missing; fails if it is repeated. -/
def onlyField? (fields : List (Option String × Json)) (name : String) : Option (Option Json) :=
  match fields.filter (·.1 == some name) with
  | [] => some none
  | [field] => some (some field.2)
  | _ => none

/-- The fields of a structure, some of them missing: an object, whose other fields are passed
over if their names stand for a text, or an array with at most as many items, in order. -/
def record? (names : List String) : Json → Option (List (Option Json))
  | object fields =>
    if fields.all (·.1.isSome) then names.mapM (onlyField? fields) else none
  | array items =>
    if items.length ≤ names.length then
      some (items.map some ++ List.replicate (names.length - items.length) none)
    else none
  | _ => none

/-- The fields of a structure, none of them missing. -/
def fullRecord? (names : List String) (j : Json) : Option (List Json) :=
  j.record? names >>= (·.mapM id)

/-- The name of a variant without content: the bare name, or an object with the name and null. -/
def variant? : Json → Option String
  | text name => some name
  | object [(some name, null)] => some name
  | _ => none

/-- The name and the content of a variant: an object with one field. -/
def taggedVariant? : Json → Option (String × Json)
  | object [(some name, content)] => some (name, content)
  | _ => none

/-! ## Writing -/

/-- A character inside a quoted text. -/
def escape (c : Char) : List Char :=
  if c = '"' ∨ c = '\\' then ['\\', c]
  else if c.toNat < 32 then ['\\', 'u'] ++ Hexadecimal.digits 4 c.toNat
  else [c]

def quote (s : String) : String := String.ofList ('"' :: s.toList.flatMap escape ++ ['"'])

/-- A number as plain digits with a power of ten where needed. -/
def renderNumber (n : Decimal.Literal) : String :=
  Decimal.signed n.negative
    (toString n.significand ++ if n.exponent = 0 then "" else "e" ++ toString n.exponent)

mutual

/-- The compact text of a value. -/
def render : Json → String
  | null => "null"
  | bool b => if b then "true" else "false"
  | number n => renderNumber n
  | text s => quote s
  | brokenText => quote ""
  | array items => "[" ++ ",".intercalate (renderItems items) ++ "]"
  | object fields => "\x7b" ++ ",".intercalate (renderFields fields) ++ "\x7d"

def renderItems : List Json → List String
  | [] => []
  | j :: rest => render j :: renderItems rest

def renderFields : List (Option String × Json) → List String
  | [] => []
  | (name, j) :: rest => (quote (name.getD "") ++ ":" ++ render j) :: renderFields rest

end

end Json

end PlaneSketch
