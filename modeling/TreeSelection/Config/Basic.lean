import TreeSelection.Export.Format
import TreeSelection.Number.Rounding

namespace TreeSelection

structure Config where
  includes : List String := []
  excludes : List String :=
    ["**/node_modules/**", "**/target/**", "**/.git/**", "**/.idea/**", "**/venv/**",
      "**/__pycache__/**", "**/*.log", "**/*.tmp", "**/*.lock", "**/package-lock.json",
      "**/.DS_Store", "**/Thumbs.db", "**/*.min.js", "**/*.map"]
  filtersOn : Bool := true
  barLfs : Bool := true
  barBinary : Bool := true
  barSubmodules : Bool := true
  /-- The size above which files are barred, in megabytes; `0` stands for no limit. -/
  maxSizeMb : Nat := 20
  format : Format := .markdown
  collapseDirectories : Bool := false
  lastRepository : Option String := none
  deriving DecidableEq

namespace Config

def maxSize? (c : Config) : Option Nat :=
  if c.maxSizeMb = 0 then none else some (Number.capped (c.maxSizeMb * (1024 * 1024)))

end Config

end TreeSelection
