import TreeSelection.Export.Format
import TreeSelection.Repository
import TreeSelection.Selection.Basic

namespace TreeSelection

inductive Contents
  | explicit (files : List String)
  | masks
  deriving DecidableEq

structure Request where
  repository : Repository
  format : Format
  includes : List String
  excludes : List String
  contents : Contents
  selectedSize : Nat
  fileCount : Nat
  deriving DecidableEq

namespace Request

def cleanPatterns (patterns : List String) : List String :=
  (patterns.map Text.trim).filter (· != "")

def ofSelection (repository : Repository) (format : Format) (includes excludes : List String)
    (contents : Contents) (s : Selection) : Request :=
  ⟨repository, format, cleanPatterns includes, cleanPatterns excludes, contents, s.size,
    s.files.length⟩

def explicit (repository : Repository) (format : Format) (includes excludes : List String)
    (s : Selection) : Request :=
  ofSelection repository format includes excludes (.explicit s.files) s

def masksOnly (repository : Repository) (format : Format) (includes excludes : List String)
    (s : Selection) : Request :=
  ofSelection repository format includes excludes .masks s

end Request

end TreeSelection
