import TreeSelection.Text.Blank

namespace TreeSelection

structure Repository where
  owner : String
  name : String
  ref : Option String
  deriving DecidableEq

namespace Repository

def text (r : Repository) : String :=
  let base := r.owner ++ "/" ++ r.name
  match r.ref with
  | some ref => base ++ "@" ++ ref
  | none => base

def dropStart (start cs : List Char) : List Char :=
  if start.isPrefixOf cs then cs.drop start.length else cs

def dropEnd (ending cs : List Char) : List Char :=
  if ending.isSuffixOf cs then cs.take (cs.length - ending.length) else cs

def isNameChar (c : Char) : Bool := c.isAlphanum || c == '-' || c == '_' || c == '.'

def isName (cs : List Char) : Bool :=
  !cs.isEmpty && cs != ['.'] && cs != ['.', '.'] && cs.all isNameChar

/-- What may stand before the owner, in order; each is left out or written once. -/
def starts : List String :=
  ["https://", "http://", "git@github.com:", "www.", "github.com/"]

def segments (text : List Char) : List (List Char) :=
  let body := (Text.trimmed text).takeWhile fun c => c != '?' && c != '#'
  let path := starts.foldl (fun cs start => dropStart start.toList cs) body
  (path.splitOn '/').filter (· != [])

def refOf : List (List Char) → Option (Option String)
  | [] => some none
  | kind :: ref =>
    if (kind == "tree".toList || kind == "blob".toList) && !ref.isEmpty then
      some (some ("/".intercalate (ref.map .ofList)))
    else none

def ofText? (text : String) : Option Repository :=
  match segments text.toList with
  | owner :: name :: rest => do
    let name := dropEnd ".git".toList name
    guard (isName owner && isName name)
    return ⟨.ofList owner, .ofList name, ← refOf rest⟩
  | _ => none

end Repository

end TreeSelection
