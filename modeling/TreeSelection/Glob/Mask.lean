import TreeSelection.Glob.Basic

namespace TreeSelection

structure Mask where
  includes : List Glob
  excludes : List Glob
  deriving DecidableEq

namespace Mask

def empty : Mask := ⟨[], []⟩

def ofPatterns [Glob.Limit] (includes excludes : List String) : Mask :=
  ⟨Glob.compileSet includes, Glob.compileSet excludes⟩

def rejectsCanonical (m : Mask) (path : String) : Bool := m.excludes.any (·.testCanonical path)

def acceptsCanonical (m : Mask) (path : String) : Bool :=
  !m.rejectsCanonical path && (m.includes.isEmpty || m.includes.any (·.testCanonical path))

def rejects (m : Mask) (path : String) : Bool := (Path.normalize path).any m.rejectsCanonical

def accepts (m : Mask) (path : String) : Bool := (Path.normalize path).any m.acceptsCanonical

end Mask

end TreeSelection
