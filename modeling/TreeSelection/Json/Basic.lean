import TreeSelection.Number.Shortest

namespace TreeSelection

/-- A whole number from 0 to `2 ^ 64 - 1`, a negative one down to `-2 ^ 63`, or a floating point
number. -/
inductive Json.Number
  | nat (n : Nat)
  | negative (n : Nat)
  | float (negative : Bool) (magnitude : Number.Binary)
  deriving DecidableEq

def Json.Number.text : Json.Number → String
  | .nat n => toString n
  | .negative n => "-" ++ toString n
  | .float s x => Number.floatText s x

inductive Json
  | null
  | bool (b : Bool)
  | number (n : Json.Number)
  | text (s : String)
  | array (items : List Json)
  | object (members : List (String × Json))

namespace Json

def nat (n : Nat) : Json := .number (.nat n)

def texts (l : List String) : Json := .array (l.map .text)

def option (f : α → Json) : Option α → Json
  | some a => f a
  | none => .null

end Json

end TreeSelection
