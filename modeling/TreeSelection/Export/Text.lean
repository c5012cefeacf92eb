import TreeSelection.Export.Request
import TreeSelection.Repository.Text

namespace TreeSelection

def Format.ofText (text : String) : Except InputError Format :=
  match ofText? text with
  | some f => .ok f
  | none => .error (.unknownFormat text)

inductive Mode
  | explicit
  | masks
  deriving DecidableEq

namespace Mode

def variants : Json.Variants Mode := [("explicit", explicit), ("masks", masks)]

def decoder : Json.Decoder Mode
  | _, .text (some name) => variants.ofName name
  | _, .number (some (.nat i)) =>
    match variants[i]? with
    | some m => .ok m.2
    | none =>
      .error (.mismatch (.invalidValue (.number (.nat i)) "variant index 0 <= i < 2"))
  | _, r => r.refuse "variant identifier"

end Mode

namespace Contents

def members : Contents → List (String × Json)
  | explicit files => [("mode", .text "explicit"), ("files", .texts files)]
  | masks => [("mode", .text "masks")]

def single (name : String) (d : Json.Decoder α) :
    Option α → List (String × Json) → Except Json.Error α
  | some a, [] => .ok a
  | none, [] => .error (.mismatch (.missingField name))
  | met, (key, v) :: ms =>
    if key = name then
      match met with
      | some _ => .error (.mismatch (.duplicateField name))
      | none => do single name d (some (← d.ofJson v)) ms
    else single name d met ms

def ofMembers (ms : List (String × Json)) : Except Json.Error Contents := do
  match ← single "mode" Mode.decoder none ms with
  | .explicit => return explicit (← single "files" (.list .text) none ms)
  | .masks => return masks

end Contents

namespace Request

def toJson (r : Request) : Json :=
  .object <|
    r.repository.members ++
    [("format", .text r.format.name),
     ("includeGlobs", .texts r.includes),
     ("excludeGlobs", .texts r.excludes)] ++
    r.contents.members ++
    [("selectedSize", .nat r.selectedSize),
     ("fileCount", .nat r.fileCount)]

def toText (r : Request) : String := r.toJson.compact

def fields : List Json.Field :=
  [.required "owner" .text,
   .required "repo" .text,
   .withDefault "ref" (Json.Decoder.option .text) none,
   .required "format" Format.variants.read,
   .required "includeGlobs" (.list .text),
   .required "excludeGlobs" (.list .text),
   .required "selectedSize" (.nat "u64"),
   .required "fileCount" (.nat "usize")]

def ofRecord : Json.Record fields → Contents → Request
  | (owner, name, ref, format, includes, excludes, selectedSize, fileCount, ()), contents =>
    ⟨⟨owner, name, ref⟩, format, includes, excludes, contents, selectedSize, fileCount⟩

def decoder : Json.Decoder Request := fun depth r => do
  let (record, rest) ← Json.Record.readWithRest "struct ExportRequest" fields depth r
  return ofRecord record (← Contents.ofMembers rest)

def ofText (s : String) : Except InputError Request :=
  (Json.Decoder.ofText decoder s).mapError .json

end Request

end TreeSelection
