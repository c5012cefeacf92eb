import TreeSelection.Entry
import TreeSelection.InputError
import TreeSelection.Json.Record
import TreeSelection.Json.Variant

namespace TreeSelection

namespace Kind

def name : Kind → String
  | file => "file"
  | dir => "dir"

def variants : Json.Variants Kind := [file, dir].map fun k => (k.name, k)

end Kind

namespace Entry

def fields : List Json.Field :=
  [.required "path" .text,
   .required "type" Kind.variants.read,
   .withDefault "size" (.nat "u64") 0,
   .withDefault "lfs" .bool false,
   .withDefault "submodule" .bool false]

def ofRecord : Json.Record fields → Entry
  | (path, kind, size, lfs, submodule, ()) => ⟨path, kind, ⟨size, lfs, submodule⟩⟩

def decoder : Json.Decoder Entry := fun depth r =>
  ofRecord <$> Json.Record.read "struct RepoEntry" fields depth r

def listOfText (s : String) : Except InputError (List Entry) :=
  (Json.Decoder.ofText (.list decoder) s).mapError .json

end Entry

end TreeSelection
