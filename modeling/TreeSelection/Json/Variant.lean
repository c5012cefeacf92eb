import TreeSelection.Json.Decoder

namespace TreeSelection.Json

abbrev Variants (α : Type) := List (String × α)

namespace Variants

def ofName (vs : Variants α) (name : String) : Except Error α :=
  match vs.lookup name with
  | some a => .ok a
  | none => .error (.mismatch (.unknownVariant name (vs.map (·.1))))

def read (vs : Variants α) : Decoder α
  | _, .text (some name) => vs.ofName name
  | _, .badText kept _ => .error (.problem kept)
  | _, .absent p => .error (.problem p)
  | 0, .object _ _ => .error malformed
  | _ + 1, .object [] _ => .error malformed
  | depth + 1, .object ((key, r) :: ms) ending => do
    let a ← vs.ofName (← key.key)
    Decoder.unit depth r
    if ms.isEmpty then ending.check else throw malformed
    return a
  | _, _ => .error malformed

def readValue (vs : Variants α) : Decoder α
  | _, .text (some name) => vs.ofName name
  | depth, .object [(.text (some name), r)] _ => do
    let a ← vs.ofName name
    Decoder.unit depth r
    return a
  | _, .object _ _ => .error (.mismatch (.invalidValue .object "map with a single key"))
  | _, r => r.refuse "string or map"

end Variants

end TreeSelection.Json
