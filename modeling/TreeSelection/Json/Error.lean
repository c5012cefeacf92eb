import TreeSelection.Json.Reading
import TreeSelection.Text.Quoted

namespace TreeSelection.Json

inductive Found
  | null
  | bool (b : Bool)
  | number (n : Number)
  | text (s : String)
  | array
  | object
  deriving DecidableEq

inductive Mismatch
  | invalidType (found : Found) (wanted : String)
  | invalidValue (found : Found) (wanted : String)
  | invalidLength (length : Nat) (wanted : String)
  | missingField (name : String)
  | duplicateField (name : String)
  | unknownVariant (name : String) (variants : List String)
  deriving DecidableEq

inductive Error
  | problem (p : Problem)
  | mismatch (m : Mismatch)
  deriving DecidableEq

def malformed : Error := .problem .malformed

def inBackticks (s : String) : String := "\x60" ++ s ++ "\x60"

def Found.message : Found → String
  | .null => "null"
  | .bool b => "boolean " ++ inBackticks (if b then "true" else "false")
  | .number (.float s x) => "floating point " ++ inBackticks (Number.float s x).text
  | .number n => "integer " ++ inBackticks n.text
  | .text s => "string " ++ Text.quoted s
  | .array => "sequence"
  | .object => "map"

def oneOf : List String → String
  | [] => "there are no variants"
  | [a] => "expected " ++ inBackticks a
  | [a, b] => "expected " ++ inBackticks a ++ " or " ++ inBackticks b
  | vs => "expected one of " ++ ", ".intercalate (vs.map inBackticks)

def Mismatch.message : Mismatch → String
  | .invalidType found wanted => "invalid type: " ++ found.message ++ ", expected " ++ wanted
  | .invalidValue found wanted => "invalid value: " ++ found.message ++ ", expected " ++ wanted
  | .invalidLength n wanted => "invalid length " ++ toString n ++ ", expected " ++ wanted
  | .missingField name => "missing field " ++ inBackticks name
  | .duplicateField name => "duplicate field " ++ inBackticks name
  | .unknownVariant name variants =>
    "unknown variant " ++ inBackticks name ++ ", " ++ oneOf variants

def Reading.found : Reading → Except Error Found
  | .null => .ok .null
  | .bool b => .ok (.bool b)
  | .number (some x) => .ok (.number x)
  | .number none => .error malformed
  | .text (some s) => .ok (.text s)
  | .text none => .error malformed
  | .array _ _ => .ok .array
  | .object _ _ => .ok .object
  | .badText kept _ => .error (.problem kept)
  | .bad kept _ => .error (.problem kept)
  | .absent p => .error (.problem p)

def Reading.refuse (r : Reading) (wanted : String) : Except Error α := do
  throw (.mismatch (.invalidType (← r.found) wanted))

end TreeSelection.Json
