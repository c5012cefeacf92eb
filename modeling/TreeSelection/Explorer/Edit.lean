import TreeSelection.Explorer.Basic
import TreeSelection.Tree.Draft

namespace TreeSelection

inductive Edit
  | load (repository : Repository) (entries : List Entry)
  | reset
  | setMasks (includes excludes : List String)
  | setFilters (on : Bool)
  | toggleFile (path : String)
  | toggleDirectory (path : String)
  | selectAll
  | deselectAll
  | toggleCollapsed (path : String)
  | collapseAll
  | expandAll
  | search (text : String)
  | flagSecrets (paths : List String)
  | setConfig (config : Config)
  deriving DecidableEq

namespace Explorer

def perform [Glob.Limit] (e : Explorer) : Edit → Explorer
  | .load repository entries => e.load repository entries
  | .reset => e.reset
  | .setMasks includes excludes => e.setMasks includes excludes
  | .setFilters on => e.setFilters on
  | .toggleFile path => (e.toggleFile path).2
  | .toggleDirectory path => (e.toggleDirectory path).2
  | .selectAll => e.selectAll
  | .deselectAll => e.deselectAll
  | .toggleCollapsed path => e.toggleCollapsed path
  | .collapseAll => e.collapseAll
  | .expandAll => e.expandAll
  | .search text => e.setSearch text
  | .flagSecrets paths => e.flagSecrets paths
  | .setConfig config => e.setConfig config

def answer (e : Explorer) : Edit → Option Bool
  | .toggleFile path => some (e.toggleFile path).1
  | .toggleDirectory path => some (e.toggleDirectory path).1
  | _ => none

def warnings (e : Explorer) : Edit → List Warning
  | .load _ entries => Warning.ofEntries entries
  | .toggleFile path => if e.isFile path then [] else [.unknownFile path]
  | .toggleDirectory path =>
    if (e.tree.find path).any (·.isDir) then [] else [.unknownDirectory path]
  | _ => []

def run [Glob.Limit] (e : Explorer) (edits : List Edit) : Explorer := edits.foldl perform e

end Explorer

end TreeSelection
