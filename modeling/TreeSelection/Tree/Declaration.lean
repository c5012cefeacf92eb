import TreeSelection.Entry
import TreeSelection.Path
import TreeSelection.Text.TextSet

namespace TreeSelection

structure Declaration where
  segments : List String
  kind : Kind
  attrs : Attrs
  deriving DecidableEq

namespace Declaration

def ofEntry? (e : Entry) : Option Declaration :=
  (Path.segments? e.path).map (⟨·, e.kind, e.attrs⟩)

def ofEntries (es : List Entry) : List Declaration := es.filterMap ofEntry?

def path (d : Declaration) : String := Path.join d.segments

def below? (name : String) (d : Declaration) : Option Declaration :=
  match d.segments with
  | first :: next :: rest => if first = name then some { d with segments := next :: rest } else none
  | _ => none

def below (name : String) (ds : List Declaration) : List Declaration := ds.filterMap (below? name)

def last? (name : String) (ds : List Declaration) : Option Declaration :=
  (ds.filter (·.segments = [name])).getLast?

def names (ds : List Declaration) : List String :=
  (TextSet.ofList (ds.filterMap (·.segments.head?))).toList

/-- A name is a directory when something stands below it, or when the last word says so. -/
def isDir (name : String) (ds : List Declaration) : Bool :=
  !(below name ds).isEmpty || (last? name ds).any (·.kind = .dir)

/-- The attributes of the last word, unless it speaks of another kind. -/
def attrsOf (name : String) (ds : List Declaration) : Attrs :=
  match last? name ds with
  | some d => if (d.kind = .dir) = isDir name ds then d.attrs else {}
  | none => {}

def depth (ds : List Declaration) : Nat := ds.foldr (fun d n => max d.segments.length n) 0

end Declaration

end TreeSelection
