import TreeSelection.Json.Decoder

namespace TreeSelection.Json

/-- A field of a record. `absent` is its value when an object leaves it out; an array may leave it
out only at its end and only with `mayEnd`. -/
structure Field where
  Value : Type
  name : String
  read : Decoder Value
  absent : Option Value
  mayEnd : Bool

namespace Field

def required (name : String) (read : Decoder α) : Field := ⟨α, name, read, none, false⟩

def withDefault (name : String) (read : Decoder α) (default : α) : Field :=
  ⟨α, name, read, some default, true⟩

def optional (name : String) (read : Decoder α) : Field :=
  ⟨Option α, name, read.option, some none, false⟩

end Field

def Record : List Field → Type
  | [] => Unit
  | f :: fs => f.Value × Record fs

def Partial : List Field → Type
  | [] => Unit
  | f :: fs => Option f.Value × Partial fs

namespace Partial

def empty : (fs : List Field) → Partial fs
  | [] => ()
  | _ :: fs => (none, empty fs)

def put? (depth : Nat) (name : String) (r : Reading) :
    (fs : List Field) → Partial fs → Option (Except Error (Partial fs))
  | [], _ => none
  | f :: fs, (v, rest) =>
    if name = f.name then
      match v with
      | some _ => some (.error (.mismatch (.duplicateField name)))
      | none => some do return (some (← f.read depth r), rest)
    else (put? depth name r fs rest).map fun x => do return (v, ← x)

def finish : (fs : List Field) → Partial fs → Except Error (Record fs)
  | [], _ => .ok ()
  | f :: fs, (v, rest) =>
    match v.or f.absent with
    | some x => do return (x, ← finish fs rest)
    | none => .error (.mismatch (.missingField f.name))

end Partial

namespace Record

def ofMembers (fs : List Field) (depth : Nat) (other : String → Reading → σ → Except Error σ) :
    List (Reading × Reading) → Partial fs → σ → Except Error (Partial fs × σ)
  | [], p, s => .ok (p, s)
  | (key, r) :: ms, p, s => do
    let name ← key.key
    match p.put? depth name r fs with
    | some p => ofMembers fs depth other ms (← p) s
    | none => ofMembers fs depth other ms p (← other name r s)

def ofObject (fs : List Field) (depth : Nat) (other : String → Reading → σ → Except Error σ)
    (start : σ) (members : List (Reading × Reading)) (ending : Ending) :
    Except Error (Record fs × σ) := do
  let (p, s) ← ofMembers fs depth other members (Partial.empty fs) start
  ending.check
  return (← Partial.finish fs p, s)

def ofItems (depth : Nat) (wanted : String) (ending : Ending) (met : Nat) :
    (fs : List Field) → List Reading → Except Error (Record fs)
  | [], [] => do ending.check
  | [], _ :: _ => .error malformed
  | f :: fs, r :: rs => do
    let x ← f.read depth r
    return (x, ← ofItems depth wanted ending (met + 1) fs rs)
  | f :: fs, [] => do
    ending.check
    match f.mayEnd, f.absent with
    | true, some x => return (x, ← ofItems depth wanted ending (met + 1) fs [])
    | _, _ => throw (.mismatch (.invalidLength met wanted))

def read (name : String) (fs : List Field) : Decoder (Record fs)
  | 0, .object _ _ | 0, .array _ _ => .error malformed
  | depth + 1, .object members ending =>
    Prod.fst <$> ofObject fs depth (fun _ r _ => r.pass) () members ending
  | depth + 1, .array rs ending =>
    ofItems depth (name ++ " with " ++ toString fs.length ++ " elements") ending 0 fs rs
  | _, r => r.refuse name

def readWithRest (name : String) (fs : List Field) :
    Decoder (Record fs × List (String × Json))
  | 0, .object _ _ => .error malformed
  | depth + 1, .object members ending => do
    let gather (name : String) (r : Reading) (rest : List (String × Json)) := do
      return (name, ← r.keep depth) :: rest
    let (record, rest) ← ofObject fs depth gather [] members ending
    return (record, rest.reverse)
  | _, r => r.refuse name

end Record

end TreeSelection.Json
