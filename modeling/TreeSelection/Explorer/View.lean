import TreeSelection.Explorer.Basic
import TreeSelection.FileSize

namespace TreeSelection

structure RowView where
  name : String
  path : String
  depth : Nat
  isDirectory : Bool
  isImage : Bool
  size : Nat
  fileCount : Nat
  checkState : CheckState
  isDisabled : Bool
  isExpanded : Bool
  isMatch : Bool
  barredFor : Option Reason
  deriving DecidableEq

structure View where
  repository : Option String
  rows : List RowView
  totalFiles : Nat
  selectedFiles : Nat
  excludedFiles : Nat
  selectedSize : Nat
  filtersOn : Bool
  includes : List String
  excludes : List String
  search : String
  status : String
  deriving DecidableEq

namespace Explorer

def rowView (e : Explorer) (term : String) (row : Row) : RowView :=
  let path := row.node.label.path
  let common : RowView :=
    { path
      name := row.node.label.name
      depth := row.depth
      isDirectory := row.node.isDir
      isImage := !row.node.isDir && FileType.isImage path
      size := row.node.totalSize
      fileCount := row.node.fileCount
      isMatch := !term.isEmpty && Tree.isFound term path
      checkState := .unchecked
      isDisabled := false
      isExpanded := false
      barredFor := none }
  match row.node with
  | .dir _ _ =>
    let counts := e.selection.counts path
    { common with
      checkState := counts.state
      isDisabled := counts.isDisabled
      isExpanded := !term.isEmpty || !e.collapsed.contains path }
  | .file _ =>
    { common with
      checkState := if e.selection.isSelected path then .checked else .unchecked
      isDisabled := e.isExcluded path
      barredFor := e.reason? path }

def status (e : Explorer) : String :=
  if e.repository.isNone then "No repository loaded"
  else
    let s := e.selection
    toString s.files.length ++ " of " ++ toString s.totalFiles ++ " files selected (" ++
      FileSize.text s.size ++ ")" ++
      if 0 < s.excludedFiles then ", " ++ toString s.excludedFiles ++ " excluded" else ""

def view (e : Explorer) : View :=
  { repository := e.repository.map (·.text)
    rows := e.rows.map (e.rowView (Tree.searchTerm e.search))
    totalFiles := e.selection.totalFiles
    selectedFiles := e.selection.files.length
    excludedFiles := e.selection.excludedFiles
    selectedSize := e.selection.size
    filtersOn := e.filtersOn
    includes := e.includes
    excludes := e.excludes
    search := e.search
    status := e.status }

end Explorer

end TreeSelection
