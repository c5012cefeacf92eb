import TreeSelection.Glob.Mask
import TreeSelection.Tree.Build

/-!
The selection: which files of a tree are exported, and how far each directory is selected. A file is
excluded when a policy excludes it or, with the filters on, when the mask rejects it. A file that is
not excluded is selected by hand, by the mask, or because the filters are off.
-/

namespace TreeSelection

inductive Decision
  | selected
  | unselected
  | excluded
  deriving DecidableEq

inductive CheckState
  | checked
  | unchecked
  | indeterminate
  deriving DecidableEq

/-- What is below a directory: the files that can be selected, those that are, and those that
cannot be. -/
structure Counts where
  total : Nat := 0
  selected : Nat := 0
  excluded : Nat := 0
  deriving DecidableEq

namespace Counts

def add (c d : Counts) : Counts :=
  ⟨c.total + d.total, c.selected + d.selected, c.excluded + d.excluded⟩

instance : Add Counts := ⟨add⟩

def state (c : Counts) : CheckState :=
  if c.total = 0 ∨ c.selected = 0 then .unchecked
  else if c.selected = c.total then .checked
  else .indeterminate

def isDisabled (c : Counts) : Bool := c.total == 0

end Counts

def Decision.counts : Decision → Counts
  | selected => ⟨1, 1, 0⟩
  | unselected => ⟨1, 0, 0⟩
  | excluded => ⟨0, 0, 1⟩

structure Choice where
  picked : TextSet
  barred : TextSet
  filtersOn : Bool
  deriving DecidableEq

def TextSet.normalized (s : TextSet) : TextSet := .ofList (s.toList.filterMap Path.normalize)

def Choice.normalized (c : Choice) : Choice :=
  ⟨c.picked.normalized, c.barred.normalized, c.filtersOn⟩

def Choice.decide (c : Choice) (mask : Mask) (path : String) : Decision :=
  if c.barred.contains path || (c.filtersOn && mask.rejectsCanonical path) then .excluded
  else if c.picked.contains path || !c.filtersOn || mask.acceptsCanonical path then .selected
  else .unselected

structure Selection where
  files : List String := []
  size : Nat := 0
  totalFiles : Nat := 0
  excludedFiles : Nat := 0
  directories : List (String × Counts) := []
  index : TextSet := .empty
  deriving DecidableEq

namespace Selection

def passFile (s : Selection) (l : Label) (decision : Decision) : Selection :=
  let s := { s with totalFiles := s.totalFiles + 1 }
  if decision = .selected then
    { s with
      files := s.files ++ [l.path]
      size := Number.capped (s.size + l.attrs.size)
      index := s.index.insert l.path }
  else s

/-- The counts of a path stand before those that were given for it earlier. -/
def leaveDirectory (s : Selection) (path : String) (counts : Counts) : Selection :=
  { s with directories := (path, counts) :: s.directories }

end Selection

def Tree.visit (rule : String → Decision) : Tree → Counts → Selection → Counts × Selection
  | nil, c, s => (c, s)
  | file l rest, c, s =>
    rest.visit rule (c + (rule l.path).counts) (s.passFile l (rule l.path))
  | dir l children rest, c, s =>
    let (below, s) := children.visit rule {} s
    rest.visit rule (c + below) (s.leaveDirectory l.path below)

namespace Selection

def ofRule (t : Tree) (rule : String → Decision) : Selection :=
  let (totals, s) := t.visit rule {} {}
  { s with excludedFiles := totals.excluded }

def ofTree (t : Tree) (mask : Mask) (choice : Choice) : Selection :=
  ofRule t (choice.normalized.decide mask)

def ofEntries [Glob.Limit] (es : List Entry) (includes excludes : List String) (choice : Choice) :
    Selection :=
  ofTree (.ofEntries es) (.ofPatterns includes excludes) choice

def isSelected (s : Selection) (path : String) : Bool := s.index.contains path

def counts (s : Selection) (path : String) : Counts := (s.directories.lookup path).getD {}

def state (s : Selection) (path : String) : CheckState := (s.counts path).state

end Selection

end TreeSelection
