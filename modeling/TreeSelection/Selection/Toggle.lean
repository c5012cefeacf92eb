import TreeSelection.Selection.Basic

namespace TreeSelection.TextSet

def toggleFile (s : TextSet) (path : String) : Bool × TextSet :=
  match Path.normalize path with
  | some p => (!s.contains p, s.toggle p)
  | none => (false, s)

def toggleFiles (s : TextSet) (files : List String) (counts : Counts) : TextSet :=
  if counts.state = .checked then s.filter (!files.contains ·)
  else (ofList files).union s

end TreeSelection.TextSet
