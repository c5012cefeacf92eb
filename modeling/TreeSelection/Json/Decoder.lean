import TreeSelection.Json.Error

/-!
Readers for the kinds of values: each takes what it wants from a tree, or tells the first thing in
the text that stands against it.
-/

namespace TreeSelection.Json

/-- A reader for values of a type. The number tells how many more arrays and objects may be opened,
one inside the other. -/
abbrev Decoder (α : Type) := Nat → Reading → Except Error α

def maxDepth : Nat := 127

def Ending.check : Ending → Except Error Unit
  | .closed => .ok ()
  | .stopped p => .error (.problem p)

namespace Reading

mutual

def pass : Reading → Except Error Unit
  | .badText _ passed => .error (.problem passed)
  | .bad _ passed => .error (.problem passed)
  | .absent p => .error (.problem p)
  | .array items ending => do passItems items; ending.check
  | .object members ending => do passMembers members; ending.check
  | _ => .ok ()
termination_by structural r => r

def passItems : List Reading → Except Error Unit
  | [] => .ok ()
  | r :: rs => do r.pass; passItems rs
termination_by structural rs => rs

def passMembers : List (Reading × Reading) → Except Error Unit
  | [] => .ok ()
  | m :: ms => do passMember m; passMembers ms
termination_by structural ms => ms

def passMember : Reading × Reading → Except Error Unit
  | (key, r) => do
    match key with
    | .text _ => r.pass
    | .badText _ passed => .error (.problem passed)
    | .absent p => .error (.problem p)
    | _ => .error malformed
termination_by structural m => m

end

def key : Reading → Except Error String
  | .text (some s) => .ok s
  | .badText kept _ => .error (.problem kept)
  | .absent p => .error (.problem p)
  | _ => .error malformed

mutual

def keep : Reading → Nat → Except Error Json
  | .null, _ => .ok .null
  | .bool b, _ => .ok (.bool b)
  | .number (some x), _ => .ok (.number x)
  | .text (some s), _ => .ok (.text s)
  | .array _ _, 0 => .error malformed
  | .array items ending, depth + 1 => do
    let items ← keepItems items depth
    ending.check
    return .array items
  | .object _ _, 0 => .error malformed
  | .object members ending, depth + 1 => do
    let members ← keepMembers members depth
    ending.check
    return .object members
  | .badText kept _, _ => .error (.problem kept)
  | .bad kept _, _ => .error (.problem kept)
  | .absent p, _ => .error (.problem p)
  | .number none, _ => .error malformed
  | .text none, _ => .error malformed
termination_by structural r => r

def keepItems : List Reading → Nat → Except Error (List Json)
  | [], _ => .ok []
  | r :: rs, depth => do return (← r.keep depth) :: (← keepItems rs depth)
termination_by structural rs => rs

def keepMembers : List (Reading × Reading) → Nat → Except Error (List (String × Json))
  | [], _ => .ok []
  | m :: ms, depth => do return (← keepMember m depth) :: (← keepMembers ms depth)
termination_by structural ms => ms

def keepMember : Reading × Reading → Nat → Except Error (String × Json)
  | (key, r), depth => do return (← key.key, ← r.keep depth)
termination_by structural m => m

end

end Reading

namespace Reading

mutual

def ofJson : Json → Reading
  | .null => .null
  | .bool b => .bool b
  | .number n => .number (some n)
  | .text s => .text (some s)
  | .array vs => .array (ofItems vs) .closed
  | .object ms => .object (ofMembers ms) .closed
termination_by structural v => v

def ofItems : List Json → List Reading
  | [] => []
  | v :: vs => ofJson v :: ofItems vs
termination_by structural vs => vs

def ofMembers : List (String × Json) → List (Reading × Reading)
  | [] => []
  | m :: ms => ofMember m :: ofMembers ms
termination_by structural ms => ms

def ofMember : String × Json → Reading × Reading
  | (name, v) => (.text (some name), ofJson v)
termination_by structural m => m

end

end Reading

namespace Decoder

def bool : Decoder Bool
  | _, .bool b => .ok b
  | _, r => r.refuse "a boolean"

def nat (type : String) : Decoder Nat
  | _, .number (some (.nat n)) => .ok n
  | _, .number (some (.negative n)) =>
    .error (.mismatch (.invalidValue (.number (.negative n)) type))
  | _, r => r.refuse type

def text : Decoder String
  | _, .text (some s) => .ok s
  | _, r => r.refuse "a string"

def unit : Decoder Unit
  | _, .null => .ok ()
  | _, r => r.refuse "unit"

def option (d : Decoder α) : Decoder (Option α)
  | _, .null => .ok none
  | depth, r => some <$> d depth r

def items (d : Reading → Except Error α) : List Reading → Except Error (List α)
  | [] => .ok []
  | r :: rs => do return (← d r) :: (← items d rs)

def list (d : Decoder α) : Decoder (List α)
  | 0, .array _ _ => .error malformed
  | depth + 1, .array rs ending => do
    let as ← items (d depth) rs
    ending.check
    return as
  | _, r => r.refuse "a sequence"

def value : Decoder Json := fun depth r => r.keep depth

def ofJson (d : Decoder α) (v : Json) : Except Error α := d maxDepth (.ofJson v)

def ofText (d : Decoder α) (s : String) : Except Error α :=
  match Reading.ofText s with
  | (r, more) => do
    let a ← d maxDepth r
    if more then throw malformed
    return a

end Decoder

end TreeSelection.Json
