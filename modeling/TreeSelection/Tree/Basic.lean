import TreeSelection.Entry
import TreeSelection.Number.Rounding
import TreeSelection.Path

namespace TreeSelection

structure Label where
  name : String
  path : String
  attrs : Attrs
  deriving DecidableEq

/-- One level of a tree: a first node and the rest of the level. -/
inductive Tree
  | nil
  | file (label : Label) (rest : Tree)
  | dir (label : Label) (children : Tree) (rest : Tree)
  deriving DecidableEq

inductive Node
  | file (label : Label)
  | dir (label : Label) (children : Tree)
  deriving DecidableEq

namespace Tree

def nodes : Tree → List Node
  | nil => []
  | file l rest => .file l :: rest.nodes
  | dir l children rest => .dir l children :: rest.nodes

def files : Tree → List Label
  | nil => []
  | file l rest => l :: rest.files
  | dir _ children rest => children.files ++ rest.files

def dirs : Tree → List Label
  | nil => []
  | file _ rest => rest.dirs
  | dir l children rest => l :: (children.dirs ++ rest.dirs)

def filePaths (t : Tree) : List String := t.files.map (·.path)

def dirPaths (t : Tree) : List String := t.dirs.map (·.path)

def fileCount : Tree → Nat
  | nil => 0
  | file _ rest => 1 + rest.fileCount
  | dir _ children rest => children.fileCount + rest.fileCount

def totalSize : Tree → Nat
  | nil => 0
  | file l rest => Number.capped (l.attrs.size + rest.totalSize)
  | dir _ children rest => Number.capped (children.totalSize + rest.totalSize)

def lookup : Tree → List String → Option Node
  | nil, _ => none
  | file l rest, ns =>
    if ns.head? = some l.name then (if ns.tail = [] then some (.file l) else none)
    else rest.lookup ns
  | dir l children rest, ns =>
    if ns.head? = some l.name then
      (if ns.tail = [] then some (.dir l children) else children.lookup ns.tail)
    else rest.lookup ns

def find (t : Tree) (path : String) : Option Node := (Path.segments? path).bind t.lookup

theorem fileCount_eq_length (t : Tree) : t.fileCount = t.files.length := by
  induction t with
  | nil => rfl
  | file l rest ih => simp [fileCount, files, ih, Nat.add_comm]
  | dir l children rest ihc ihr => simp [fileCount, files, ihc, ihr]

theorem totalSize_eq (t : Tree) :
    t.totalSize = Number.capped (Number.total (t.files.map (·.attrs.size))) := by
  induction t with
  | nil => rfl
  | file l rest ih => simp [totalSize, files, ih, Number.capped_add_capped]
  | dir l children rest ihc ihr =>
    simp only [totalSize, files, List.map_append, Number.total_append, ihc, ihr]
    rw [Number.capped_add_capped, Nat.add_comm, Number.capped_add_capped, Nat.add_comm]

end Tree

namespace Node

def label : Node → Label
  | file l => l
  | dir l _ => l

def isDir : Node → Bool
  | file _ => false
  | dir _ _ => true

def children : Node → Tree
  | file _ => .nil
  | dir _ children => children

def fileCount : Node → Nat
  | file _ => 1
  | dir _ children => children.fileCount

def totalSize : Node → Nat
  | file l => l.attrs.size
  | dir _ children => children.totalSize

def filePaths : Node → List String
  | file l => [l.path]
  | dir _ children => children.filePaths

end Node

end TreeSelection
