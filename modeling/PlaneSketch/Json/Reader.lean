import PlaneSketch.Json.Value

/-!
# Reading JSON

Strict JSON: no comments, no trailing commas, no text after the value; blanks are the space, the
tab and the two line-end characters.  Every reader takes the characters that are left and gives a
value with the characters after it.
-/

namespace PlaneSketch.Json

open Decimal (Literal)

def isBlank (c : Char) : Bool := c == ' ' || c == '\t' || c == '\n' || c == '\r'

def skipBlanks (cs : List Char) : List Char := cs.dropWhile isBlank

/-! ## Numbers -/

/-- The value of a digit. -/
def digitValue (c : Char) : Nat := c.toNat - '0'.toNat

/-- The number that decimal digits write. -/
def digitsValue (ds : List Char) : Nat := ds.foldl (fun value c => 10 * value + digitValue c) 0

/-- One or more digits. -/
def readDigits (cs : List Char) : Option (List Char × List Char) :=
  let ds := cs.takeWhile Char.isDigit
  if ds.isEmpty then none else some (ds, cs.dropWhile Char.isDigit)

/-- The digits before the point: a zero stands alone. -/
def readWhole (cs : List Char) : Option (List Char × List Char) := do
  let (ds, rest) ← readDigits cs
  if ds.head? = some '0' ∧ ds ≠ ['0'] then none else some (ds, rest)

/-- A point with digits after it, if there is one. -/
def readFraction : List Char → Option (Option (List Char) × List Char)
  | '.' :: rest => (readDigits rest).map fun (ds, rest) => (some ds, rest)
  | cs => some (none, cs)

/-- The digits of an exponent with an optional sign. -/
def readSignedDigits : List Char → Option (Int × List Char)
  | '-' :: rest => (readDigits rest).map fun (ds, rest) => (-(digitsValue ds : Int), rest)
  | '+' :: rest => (readDigits rest).map fun (ds, rest) => ((digitsValue ds : Int), rest)
  | cs => (readDigits cs).map fun (ds, rest) => ((digitsValue ds : Int), rest)

/-- An exponent, if there is one. -/
def readExponent : List Char → Option (Option Int × List Char)
  | 'e' :: rest => (readSignedDigits rest).map fun (n, rest) => (some n, rest)
  | 'E' :: rest => (readSignedDigits rest).map fun (n, rest) => (some n, rest)
  | cs => some (none, cs)

def readMagnitude (negative : Bool) (cs : List Char) : Option (Literal × List Char) := do
  let (whole, rest) ← readWhole cs
  let (fraction, rest) ← readFraction rest
  let (power, rest) ← readExponent rest
  let values := fun ds : List Char => ds.map digitValue
  return (.ofDigits negative (values whole) (fraction.map values) power, rest)

def readNumber : List Char → Option (Literal × List Char)
  | '-' :: rest => readMagnitude true rest
  | cs => readMagnitude false cs

/-! ## Strings -/

/-- The character that a one-letter escape stands for. -/
def escaped? : Char → Option Char
  | '"' => some '"'
  | '\\' => some '\\'
  | '/' => some '/'
  | 'b' => some '\x08'
  | 'f' => some '\x0c'
  | 'n' => some '\n'
  | 'r' => some '\r'
  | 't' => some '\t'
  | _ => none

/-- The codes of a string after its opening quote; an escape may give half of a pair. -/
def readCodes : List Char → Option (List Nat × List Char)
  | '"' :: rest => some ([], rest)
  | '\\' :: 'u' :: a :: b :: c :: d :: rest => do
    let code ← Hexadecimal.value? [a, b, c, d]
    let (codes, rest) ← readCodes rest
    return (code :: codes, rest)
  | '\\' :: c :: rest => do
    let c ← escaped? c
    let (codes, rest) ← readCodes rest
    return (c.toNat :: codes, rest)
  | c :: rest =>
    if c.toNat < 32 then none
    else (readCodes rest).map fun (codes, rest) => (c.toNat :: codes, rest)
  | [] => none

def isHighHalf (code : Nat) : Bool := 0xd800 ≤ code && code < 0xdc00

def isLowHalf (code : Nat) : Bool := 0xdc00 ≤ code && code < 0xe000

/-- The characters of a list of codes; none if half of a pair stands alone. -/
def pairHalves : List Nat → Option (List Char)
  | [] => some []
  | high :: low :: rest =>
    if isHighHalf high && isLowHalf low then
      (pairHalves rest).map
        (Char.ofNat (0x10000 + (high - 0xd800) * 0x400 + (low - 0xdc00)) :: ·)
    else if isHighHalf high || isLowHalf high then none
    else (pairHalves (low :: rest)).map (Char.ofNat high :: ·)
  | [code] => if isHighHalf code || isLowHalf code then none else some [Char.ofNat code]

/-- A string after its opening quote, none in place of a text that it does not have. -/
def readText (cs : List Char) : Option (Option String × List Char) :=
  (readCodes cs).map fun (codes, rest) => ((pairHalves codes).map String.ofList, rest)

/-! ## Values -/

/-- The characters after a word. -/
def readWord (word : String) (cs : List Char) : Option (List Char) :=
  if word.toList.isPrefixOf cs then some (cs.drop word.length) else none

/-- A name of a field with the colon after it. -/
def readName (cs : List Char) : Option (Option String × List Char) :=
  match skipBlanks cs with
  | '"' :: rest => do
    let (name, rest) ← readText rest
    match skipBlanks rest with
    | ':' :: rest => some (name, rest)
    | _ => none
  | _ => none

mutual

/-- A value; `fuel` bounds the depth and the number of items still to come. -/
def readValue : (fuel : Nat) → List Char → Option (Json × List Char)
  | 0, _ => none
  | fuel + 1, cs =>
    match skipBlanks cs with
    | '[' :: rest =>
      match skipBlanks rest with
      | ']' :: rest => some (.array [], rest)
      | rest => (readItems fuel rest).map fun (items, rest) => (.array items, rest)
    | '{' :: rest =>
      match skipBlanks rest with
      | '}' :: rest => some (.object [], rest)
      | rest => (readFields fuel rest).map fun (fields, rest) => (.object fields, rest)
    | '"' :: rest =>
      (readText rest).map fun (s, rest) => ((s.map Json.text).getD .brokenText, rest)
    | 'n' :: rest => (readWord "ull" rest).map (.null, ·)
    | 't' :: rest => (readWord "rue" rest).map (.bool true, ·)
    | 'f' :: rest => (readWord "alse" rest).map (.bool false, ·)
    | cs => (readNumber cs).map fun (n, rest) => (.number n, rest)

/-- The items of an array, at least one, with the closing bracket. -/
def readItems : (fuel : Nat) → List Char → Option (List Json × List Char)
  | 0, _ => none
  | fuel + 1, cs => do
    let (item, rest) ← readValue fuel cs
    match skipBlanks rest with
    | ',' :: rest => (readItems fuel rest).map fun (items, rest) => (item :: items, rest)
    | ']' :: rest => some ([item], rest)
    | _ => none

/-- The fields of an object, at least one, with the closing brace. -/
def readFields : (fuel : Nat) → List Char → Option (List (Option String × Json) × List Char)
  | 0, _ => none
  | fuel + 1, cs => do
    let (name, rest) ← readName cs
    let (value, rest) ← readValue fuel rest
    match skipBlanks rest with
    | ',' :: rest => (readFields fuel rest).map fun (fields, rest) => ((name, value) :: fields, rest)
    | '}' :: rest => some ([(name, value)], rest)
    | _ => none

end

/-- The value that a text holds, with nothing but blanks around it. -/
def ofText? (s : String) : Option Json := do
  let cs := s.toList
  let (value, rest) ← readValue (2 * cs.length + 2) cs
  if (skipBlanks rest).isEmpty then some value else none

end PlaneSketch.Json
