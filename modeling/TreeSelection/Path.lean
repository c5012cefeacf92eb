/-!
Repository paths. A path is written in many ways (either slash, doubled or leading slashes, `.`
segments) and has one canonical spelling, the join of its segments; a spelling that would climb
out of the repository, or name nothing in it, denotes no path.
-/

namespace TreeSelection.Path

def isSeparator (c : Char) : Bool := c == '/' || c == '\\'

def pieces (cs : List Char) : List (List Char) :=
  (cs.splitOnP isSeparator).filter fun s => s != [] && s != ['.']

def segments? (s : String) : Option (List String) :=
  let ps := pieces s.toList
  if '\x00' ∈ s.toList ∨ ['.', '.'] ∈ ps ∨ ps = [] then none else some (ps.map .ofList)

def join (segments : List String) : String := "/".intercalate segments

def normalize (s : String) : Option String := (segments? s).map join

def fileName (path : String) : String :=
  .ofList (path.toList.reverse.takeWhile (· != '/')).reverse

def parent (path : String) : Option String :=
  match path.toList.reverse.dropWhile (· != '/') with
  | [] => none
  | _ :: above => some (.ofList above.reverse)

end TreeSelection.Path
