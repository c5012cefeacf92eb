import TreeSelection.Config.Basic
import TreeSelection.Json.Record
import TreeSelection.Json.Settled
import TreeSelection.Json.Writer

namespace TreeSelection.Config

def toJson (c : Config) : Json :=
  .object
    [("default_include_globs", .texts c.includes),
     ("default_exclude_globs", .texts c.excludes),
     ("filters_enabled", .bool c.filtersOn),
     ("exclude_lfs_files", .bool c.barLfs),
     ("exclude_binary_files", .bool c.barBinary),
     ("exclude_submodules", .bool c.barSubmodules),
     ("max_file_size_mb", .nat c.maxSizeMb),
     ("default_export_format", .text c.format.name),
     ("collapse_directories_by_default", .bool c.collapseDirectories),
     ("last_repository", .option .text c.lastRepository)]

def toText (c : Config) : String := c.toJson.pretty

section

open Json (Field Decoder)

def fields (format : Decoder Format) : List Field :=
  [.required "default_include_globs" (.list .text),
   .required "default_exclude_globs" (.list .text),
   .required "filters_enabled" .bool,
   .required "exclude_lfs_files" .bool,
   .required "exclude_binary_files" .bool,
   .required "exclude_submodules" .bool,
   .required "max_file_size_mb" (.nat "u64"),
   .required "default_export_format" format,
   .required "collapse_directories_by_default" .bool,
   .optional "last_repository" .text]

def ofRecord {format : Decoder Format} : Json.Record (fields format) → Config
  | (includes, excludes, filtersOn, barLfs, barBinary, barSubmodules, maxSizeMb, format,
      collapseDirectories, lastRepository, ()) =>
    ⟨includes, excludes, filtersOn, barLfs, barBinary, barSubmodules, maxSizeMb, format,
      collapseDirectories, lastRepository⟩

def decoder (format : Decoder Format) : Decoder Config := fun depth r =>
  ofRecord <$> Json.Record.read "struct AppConfig" (fields format) depth r

end

def ofText (s : String) : Except Json.Error Config :=
  Json.Decoder.ofText (decoder Format.variants.read) s

def isMissing (ms : List (String × Json)) (name : String) : Bool :=
  match Json.lastValue? name ms with
  | none => true
  | some .null => name != "last_repository"
  | some _ => false

def defaults : List (String × Json) :=
  match toJson {} with
  | .object ms => ms
  | _ => []

def completed (ms : List (String × Json)) : List (String × Json) :=
  Json.arrange (ms ++ defaults.filter (isMissing ms ·.1))

inductive TextError
  | json (e : Json.Error)
  | notAnObject
  deriving DecidableEq

def ofPartialText (s : String) : Except TextError Config := do
  match ← (Json.Decoder.ofText .value s).mapError TextError.json with
  | .object ms =>
    let v := Json.object (completed (Json.arrange (Json.settledMembers ms)))
    (Json.Decoder.ofJson (decoder Format.variants.readValue) v).mapError .json
  | _ => throw .notAnObject

end TreeSelection.Config
