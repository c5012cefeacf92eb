import TreeSelection.Exclusion
import TreeSelection.Export.Request
import TreeSelection.Glob.Cache
import TreeSelection.Rows
import TreeSelection.Selection.Toggle

/-!
A session with one repository: its listing, the masks, what the user picked and collapsed, and the
selection that follows.
-/

namespace TreeSelection

structure Explorer where
  config : Config
  repository : Option Repository
  entries : List Entry
  tree : Tree
  includes : List String
  excludes : List String
  mask : Mask
  cache : Glob.Cache
  filtersOn : Bool
  picked : TextSet
  secrets : TextSet
  exclusions : List Exclusion
  barred : TextSet
  collapsed : TextSet
  search : String
  selection : Selection
  deriving DecidableEq

namespace Explorer

def ofConfig [Glob.Limit] (config : Config) : Explorer :=
  let (mask, cache) := Glob.Cache.empty.mask config.includes config.excludes
  { config, mask, cache
    repository := none
    entries := []
    tree := .nil
    includes := config.includes
    excludes := config.excludes
    filtersOn := config.filtersOn
    picked := .empty
    secrets := .empty
    exclusions := []
    barred := .empty
    collapsed := .empty
    search := ""
    selection := {} }

def reason? (e : Explorer) (path : String) : Option Reason :=
  (e.exclusions.find? (·.path == path)).map (·.reason)

def isExcluded (e : Explorer) (path : String) : Bool :=
  e.barred.contains path || (e.filtersOn && e.mask.rejects path)

def rows (e : Explorer) : List Row := e.tree.rows e.collapsed e.search

def choice (e : Explorer) : Choice := ⟨e.picked, e.barred, e.filtersOn⟩

def resolve (e : Explorer) : Explorer :=
  { e with selection := .ofTree e.tree e.mask e.choice }

/-- The session with the exclusions that follow from the settings and the secrets. A secret is the
reason whatever else may be. -/
def exclude (e : Explorer) : Explorer :=
  let byPolicy := (Policy.ofConfig e.config).exclusions e.tree
  let secrets := e.secrets.toList.map (⟨·, .secret⟩)
  let exclusions := secrets ++ byPolicy.filter (!e.secrets.contains ·.path)
  { e with exclusions, barred := .ofList (exclusions.map (·.path)) }

def directories (e : Explorer) : TextSet := .ofList e.tree.dirPaths

/-- Another listing. The same repository and ref keep what was picked, flagged and collapsed as far
as it is still there; another starts afresh. -/
def load (e : Explorer) (repository : Repository) (entries : List Entry) : Explorer :=
  let same := e.repository = some repository
  let e := { e with tree := .ofEntries entries, entries }
  let e :=
    if same then
      let files := TextSet.ofList e.tree.filePaths
      { e with
        picked := e.picked.filter files.contains
        secrets := e.secrets.filter files.contains
        collapsed := e.collapsed.filter e.directories.contains }
    else
      { e with
        picked := .empty
        secrets := .empty
        search := ""
        collapsed := if e.config.collapseDirectories then e.directories else .empty }
  let config := { e.config with lastRepository := some repository.text }
  { e with config, repository := some repository }.exclude.resolve

def reset (e : Explorer) : Explorer :=
  { e with
    repository := none
    entries := []
    tree := .nil
    picked := .empty
    secrets := .empty
    exclusions := []
    barred := .empty
    collapsed := .empty
    search := ""
    selection := {} }

def setMasks [Glob.Limit] (e : Explorer) (includes excludes : List String) : Explorer :=
  let (mask, cache) := e.cache.mask includes excludes
  { e with mask, cache, includes, excludes }.resolve

def setFilters (e : Explorer) (on : Bool) : Explorer := { e with filtersOn := on }.resolve

def isFile (e : Explorer) (path : String) : Bool := (e.tree.find path).any (!·.isDir)

def toggleFile (e : Explorer) (path : String) : Bool × Explorer :=
  if e.isFile path then
    let (now, picked) := e.picked.toggleFile path
    (now, { e with picked }.resolve)
  else (false, e)

def toggleDirectory (e : Explorer) (path : String) : Bool × Explorer :=
  match e.tree.find path with
  | some (.dir l children) =>
    let counts := e.selection.counts l.path
    (true, { e with picked := e.picked.toggleFiles children.filePaths counts }.resolve)
  | _ => (false, e)

def selectAll (e : Explorer) : Explorer :=
  { e with picked := (TextSet.ofList e.tree.filePaths).union e.picked }.resolve

def deselectAll (e : Explorer) : Explorer := { e with picked := .empty }.resolve

def toggleCollapsed (e : Explorer) (path : String) : Explorer :=
  match Path.normalize path with
  | some p => { e with collapsed := e.collapsed.toggle p }
  | none => e

def collapseAll (e : Explorer) : Explorer := { e with collapsed := e.directories }

def expandAll (e : Explorer) : Explorer := { e with collapsed := .empty }

def setSearch (e : Explorer) (search : String) : Explorer := { e with search }

def flagSecrets (e : Explorer) (paths : List String) : Explorer :=
  let found := (paths.filterMap Path.normalize).filter e.isFile
  { e with secrets := (TextSet.ofList found).union e.secrets }.exclude.resolve

def setConfig (e : Explorer) (config : Config) : Explorer := { e with config }

/-- The export of the selection. When nothing but the masks shapes it they are enough; otherwise
the files are named. -/
def request? (e : Explorer) (format : Option Format) : Option Request :=
  e.repository.map fun repository =>
    let format := format.getD e.config.format
    let (includes, excludes) := if e.filtersOn then (e.includes, e.excludes) else ([], [])
    if e.picked.isEmpty && e.barred.isEmpty then
      .masksOnly repository format includes excludes e.selection
    else .explicit repository format includes excludes e.selection

end Explorer

end TreeSelection
