namespace TreeSelection

/-- The steps that lead to a place from the outermost directory, and whether a slash follows them.
The step `.` stays in a directory, `..` leads out of it, and every other step is a name in it. -/
structure Place where
  steps : List String
  slash : Bool
  deriving DecidableEq

namespace Place

def ofText (s : String) : Place :=
  let pieces := (s.toList.splitOnP (· == '/')).filter (· != [])
  ⟨pieces.map .ofList, s.toList.getLast? == some '/'⟩

def toText (p : Place) : String := "/".intercalate p.steps ++ if p.slash then "/" else ""

def above (p : Place) : List String := (p.steps.filter (· != ".")).dropLast

end Place

end TreeSelection
