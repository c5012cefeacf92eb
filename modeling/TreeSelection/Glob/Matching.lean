import TreeSelection.Glob.Token

namespace TreeSelection.Glob

def Row.one (ok : Char → Bool) : List Char → List Bool → List Bool
  | c :: cs, _ :: row => (ok c && row.headD false) :: one ok cs row
  | _, _ => [false]

def Row.many (ok : Char → Bool) : List Char → List Bool → List Bool
  | c :: cs, b :: row =>
    let rest := many ok cs row
    (b || (ok c && rest.headD false)) :: rest
  | _, row => row

def Row.dirs : List Char → List Bool → List Bool
  | c :: cs, _ :: row =>
    let rest := dirs cs row
    ((c == '/' && row.headD false) || rest.headD false) :: rest
  | _, _ => [false]

def Row.or (r s : List Bool) : List Bool := List.zipWith (· || ·) r s

def Token.row (path : List Char) (next : List Bool) : Token → List Bool
  | .lit c => Row.one (· == c) path next
  | .one => Row.one (· != '/') path next
  | .star => Row.many (· != '/') path next
  | .anything => Row.many (fun _ => true) path next
  | .someDirs => Row.dirs path next
  | .anyDirs => Row.or next (Row.dirs path next)
  | .subtree => Row.or next (Row.one (· == '/') path (Row.many (fun _ => true) path next))

def row (path : List Char) (ts : List Token) : List Bool :=
  ts.foldr (fun t next => t.row path next) (path.map (fun _ => false) ++ [true])

def accepts (ts : List Token) (path : List Char) : Bool := (row path ts).headD false

end TreeSelection.Glob
