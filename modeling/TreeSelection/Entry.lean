namespace TreeSelection

inductive Kind
  | file
  | dir
  deriving DecidableEq

structure Attrs where
  size : Nat := 0
  lfs : Bool := false
  submodule : Bool := false
  deriving DecidableEq

structure Entry where
  path : String
  kind : Kind
  attrs : Attrs
  deriving DecidableEq

namespace Entry

def isFile (e : Entry) : Bool := e.kind == .file

end Entry

end TreeSelection
