import TreeSelection.Tree.Basic
import TreeSelection.Tree.Declaration

/-!
Building a tree from a flat listing. Entries without a path are passed over; directories that are
only implied are made; of several entries for a path the last counts, but a path with something
below it is always a directory. Directories stand before files, both in the order of their names.
-/

namespace TreeSelection.Tree

/-- The level of a directory whose path, with a slash, is `above`. The number bounds the depth. -/
def level : Nat → String → List Declaration → Tree
  | 0, _, _ => .nil
  | depth + 1, above, ds =>
    let label (name : String) : Label := ⟨name, above ++ name, Declaration.attrsOf name ds⟩
    let (dirs, files) := (Declaration.names ds).partition (Declaration.isDir · ds)
    let files := files.foldr (fun name rest => .file (label name) rest) .nil
    dirs.foldr (fun name rest =>
      let children := level depth (above ++ name ++ "/") (Declaration.below name ds)
      .dir (label name) children rest) files

def ofDeclarations (ds : List Declaration) : Tree := level (Declaration.depth ds) "" ds

def ofEntries (es : List Entry) : Tree := ofDeclarations (Declaration.ofEntries es)

end TreeSelection.Tree
