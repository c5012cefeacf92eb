import TreeSelection.Glob.Mask

namespace TreeSelection.Glob

structure Cache where
  compiled : List (String × Glob)
  deriving DecidableEq

namespace Cache

def empty : Cache := ⟨[]⟩

def size (c : Cache) : Nat := c.compiled.length

def isEmpty (c : Cache) : Bool := c.compiled.isEmpty

variable [Limit]

def compile (c : Cache) (pattern : String) : Glob × Cache :=
  match c.compiled.lookup pattern with
  | some g => (g, c)
  | none =>
    let g := Glob.compile pattern
    (g, ⟨c.compiled ++ [(pattern, g)]⟩)

def compileAll (c : Cache) : List String → List Glob × Cache
  | [] => ([], c)
  | p :: ps =>
    let (g, c) := c.compile p
    let (gs, c) := c.compileAll ps
    (g :: gs, c)

def mask (c : Cache) (includes excludes : List String) : Mask × Cache :=
  let (includes, c) := c.compileAll (includes.filter (!Text.isBlankText ·))
  let (excludes, c) := c.compileAll (excludes.filter (!Text.isBlankText ·))
  (⟨includes, excludes⟩, c)

end Cache

end TreeSelection.Glob
