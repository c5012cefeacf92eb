import TreeSelection.Tree.Basic
import TreeSelection.Tree.Declaration
import TreeSelection.Warning

/-!
A tree under construction. The declarations of a listing are inserted one by one, in the order of
their paths: each makes directories of the paths that lead to it and settles, or settles anew, what
stands at its own. What is odd about the listing is noted on the way.
-/

namespace TreeSelection

def Declaration.sorted (ds : List Declaration) : List Declaration :=
  ds.mergeSort fun d e => d.path ≤ e.path

namespace Declaration

def label (d : Declaration) : Label := ⟨d.segments.getLastD "", d.path, d.attrs⟩

def standsBefore (d e : Declaration) : Bool :=
  if d.kind = e.kind then d.label.name ≤ e.label.name else d.kind = .dir

end Declaration

def Warning.invalidPaths (es : List Entry) : List Warning :=
  (es.filter fun e => (Path.segments? e.path).isNone).map (.invalidPath ·.path)

/-- What is settled so far, one declaration for each path, and the warnings that were due. -/
structure Draft where
  settled : List Declaration
  warnings : List Warning

namespace Draft

def at? (d : Draft) (segments : List String) : Option Declaration :=
  d.settled.find? (·.segments = segments)

def put (new : Declaration) : List Declaration → List Declaration
  | [] => [new]
  | old :: rest => if old.segments = new.segments then new :: rest else old :: put new rest

def settle (d : Draft) (new : Declaration) : Draft := { d with settled := put new d.settled }

def warn (d : Draft) (w : Warning) : Draft := { d with warnings := d.warnings ++ [w] }

def hasChildren (d : Draft) (segments : List String) : Bool :=
  d.settled.any (·.segments.dropLast = segments)

def enter (d : Draft) (segments : List String) : Draft :=
  match d.at? segments with
  | none => d.settle ⟨segments, .dir, {}⟩
  | some old =>
    if old.kind = .file then
      (d.settle ⟨segments, .dir, {}⟩).warn (.fileWithChildren (Path.join segments))
    else d

/-- Another word on a path. It counts, unless it would make a file of what has children. -/
def merge (d : Draft) (old new : Declaration) : Draft :=
  if old.kind = new.kind then d.settle new
  else if new.kind = .file ∧ d.hasChildren new.segments then d.warn (.keptDirectory new.path)
  else (d.settle new).warn (.kindConflict new.path)

def ancestors : List String → List (List String)
  | [] | [_] => []
  | s :: ss => [s] :: (ancestors ss).map (s :: ·)

def enterAll (d : Draft) (paths : List (List String)) : Draft := paths.foldl enter d

def insert (d : Draft) (new : Declaration) : Draft :=
  let d := d.enterAll (ancestors new.segments)
  match d.at? new.segments with
  | none => d.settle new
  | some old => d.merge old new

def ofDeclarations (ws : List Warning) (ds : List Declaration) : Draft := ds.foldl insert ⟨[], ws⟩

/-- The draft of a listing. Entries without a path are left out, with a warning, before the others
are sorted. -/
def ofEntries (es : List Entry) : Draft :=
  ofDeclarations (Warning.invalidPaths es) (Declaration.sorted (Declaration.ofEntries es))

def children (d : Draft) (above : List String) : List Declaration :=
  (d.settled.filter (·.segments.dropLast = above)).mergeSort Declaration.standsBefore

def level (d : Draft) : Nat → List String → Tree
  | 0, _ => .nil
  | depth + 1, above =>
    (d.children above).foldr (fun new rest =>
      match new.kind with
      | .file => .file new.label rest
      | .dir => .dir new.label (d.level depth new.segments) rest) .nil

def tree (d : Draft) : Tree := d.level (Declaration.depth d.settled) []

end Draft

def Warning.ofEntries (es : List Entry) : List Warning := (Draft.ofEntries es).warnings

end TreeSelection
