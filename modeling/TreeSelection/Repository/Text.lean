import TreeSelection.InputError
import TreeSelection.Json.Record
import TreeSelection.Json.Writer
import TreeSelection.Repository

namespace TreeSelection.Repository

def ofText (text : String) : Except InputError Repository :=
  match ofText? text with
  | some r => .ok r
  | none => .error (.notARepository text)

def members (r : Repository) : List (String × Json) :=
  [("owner", .text r.owner), ("repo", .text r.name)] ++
    match r.ref with
    | some ref => [("ref", .text ref)]
    | none => []

def toJson (r : Repository) : Json := .object r.members

def toText (r : Repository) : String := r.toJson.compact

def fields : List Json.Field :=
  [.required "owner" .text,
   .required "repo" .text,
   .withDefault "ref" (Json.Decoder.option .text) none]

def ofRecord : Json.Record fields → Repository
  | (owner, name, ref, ()) => ⟨owner, name, ref⟩

def decoder : Json.Decoder Repository := fun depth r =>
  ofRecord <$> Json.Record.read "struct RepoRef" fields depth r

def ofJsonText (s : String) : Except InputError Repository :=
  (Json.Decoder.ofText decoder s).mapError .json

end TreeSelection.Repository
