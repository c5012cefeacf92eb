import TreeSelection.Text.Blank
import TreeSelection.Text.Contains
import TreeSelection.Text.LowerCase
import TreeSelection.Text.TextSet
import TreeSelection.Tree.Basic

/-!
The rows that show a tree. Without a search the contents of collapsed directories are hidden. With
a search a node is shown when its path contains the term in lower case, or when something below it
is shown.
-/

namespace TreeSelection

structure Row where
  depth : Nat
  node : Node
  deriving DecidableEq

namespace Tree

def expandedRows (collapsed : TextSet) (depth : Nat) : Tree → List Row
  | nil => []
  | file l rest => ⟨depth, .file l⟩ :: rest.expandedRows collapsed depth
  | dir l children rest =>
    let shown := if collapsed.contains l.path then []
      else children.expandedRows collapsed (depth + 1)
    ⟨depth, .dir l children⟩ :: (shown ++ rest.expandedRows collapsed depth)

def isFound (term path : String) : Bool := Text.contains (Text.lowerCase path) term

def matchingRows (term : String) (depth : Nat) : Tree → List Row
  | nil => []
  | file l rest =>
    let others := rest.matchingRows term depth
    if isFound term l.path then ⟨depth, .file l⟩ :: others else others
  | dir l children rest =>
    let shown := children.matchingRows term (depth + 1)
    let others := rest.matchingRows term depth
    if isFound term l.path || !shown.isEmpty then
      ⟨depth, .dir l children⟩ :: (shown ++ others)
    else others

def searchTerm (search : String) : String := Text.lowerCase (Text.trim search)

def rows (t : Tree) (collapsed : TextSet) (search : String) : List Row :=
  let term := searchTerm search
  if term.isEmpty then t.expandedRows collapsed 0 else t.matchingRows term 0

end Tree

end TreeSelection
