import TreeSelection.Config.Basic
import TreeSelection.FileType
import TreeSelection.Tree.Basic

namespace TreeSelection

inductive Reason
  | lfs
  | tooLarge (size limit : Nat)
  | binary
  | submodule
  | secret
  deriving DecidableEq

structure Exclusion where
  path : String
  reason : Reason
  deriving DecidableEq

structure Policy where
  barLfs : Bool
  barBinary : Bool
  barSubmodules : Bool
  maxSize : Option Nat
  deriving DecidableEq

namespace Policy

def ofConfig (c : Config) : Policy := ⟨c.barLfs, c.barBinary, c.barSubmodules, c.maxSize?⟩

/-- The first reason against a file, in the order submodule, large file storage, size, binary. -/
def reason? (p : Policy) (inSubmodule : Bool) (file : Label) : Option Reason :=
  if p.barSubmodules && (inSubmodule || file.attrs.submodule) then some .submodule
  else if p.barLfs && file.attrs.lfs then some .lfs
  else match p.maxSize.filter (· < file.attrs.size) with
    | some limit => some (.tooLarge file.attrs.size limit)
    | none => if p.barBinary && FileType.isBinary file.path then some .binary else none

def exclusionsIn (p : Policy) (inSubmodule : Bool) : Tree → List Exclusion
  | .nil => []
  | .file l rest =>
    let others := p.exclusionsIn inSubmodule rest
    match p.reason? inSubmodule l with
    | some r => ⟨l.path, r⟩ :: others
    | none => others
  | .dir l children rest =>
    p.exclusionsIn (inSubmodule || l.attrs.submodule) children ++ p.exclusionsIn inSubmodule rest

def exclusions (p : Policy) (t : Tree) : List Exclusion := p.exclusionsIn false t

end Policy

end TreeSelection
