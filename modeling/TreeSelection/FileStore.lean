import TreeSelection.Place

/-!
A store of files in directories, and what goes wrong when it is used. A place is looked up step by
step, so every directory on the way must be there, even one that is left again.
-/

namespace TreeSelection

inductive Content
  | text (s : String)
  | bytes
  deriving DecidableEq

def Content.ofBytes (b : ByteArray) : Content :=
  match String.fromUTF8? b with
  | some s => .text s
  | none => .bytes

inductive FileError
  | notFound
  | isDirectory
  | notDirectory
  | fileExists
  | notText
  deriving DecidableEq

def FileError.message : FileError → String
  | notFound => "No such file or directory (os error 2)"
  | isDirectory => "Is a directory (os error 21)"
  | notDirectory => "Not a directory (os error 20)"
  | fileExists => "File exists (os error 17)"
  | notText => "stream did not contain valid UTF-8"

/-- Where a file or a directory is: the names that lead to it. Those that lie above the outermost
directory start with `..` steps. -/
abbrev Address := List String

structure FileStore where
  /-- The contents of the files; the first entry for an address counts. -/
  files : List (Address × Content)
  dirs : List Address
  deriving DecidableEq

namespace FileStore

abbrev Action := ExceptT FileError (StateM FileStore)

def empty : FileStore := ⟨[], []⟩

def isOutermost (a : Address) : Bool := a.all (· == "..")

def isDir (s : FileStore) (a : Address) : Bool := isOutermost a || s.dirs.contains a

def isFile (s : FileStore) (a : Address) : Bool := (s.files.lookup a).isSome

def enter (here : Address) (step : String) : Address :=
  if step = "." then here
  else if step = ".." && !isOutermost here then here.dropLast
  else here ++ [step]

def follow (s : FileStore) (here : Address) : List String → Except FileError Address
  | [] => .ok here
  | step :: steps =>
    if s.isDir here then s.follow (enter here step) steps
    else if s.isFile here then .error .notDirectory
    else .error .notFound

def address (s : FileStore) (p : Place) : Except FileError Address := s.follow [] p.steps

def isThere (s : FileStore) (p : Place) : Bool :=
  match s.address p with
  | .ok a => s.isDir a || (s.isFile a && !p.slash)
  | .error _ => false

def read (s : FileStore) (p : Place) : Except FileError String := do
  let a ← s.address p
  if s.isDir a then .error .isDirectory
  else match s.files.lookup a with
    | none => .error .notFound
    | some c =>
      if p.slash then .error .notDirectory
      else match c with
        | .text t => .ok t
        | .bytes => .error .notText

def write (p : Place) (c : Content) : Action Unit := do
  let s ← get
  let a ← s.address p
  if s.isDir a || p.slash then throw .isDirectory
  else set { s with files := (a, c) :: s.files }

def makeDir (steps : List String) : Action Unit := do
  let s ← get
  let a ← s.follow [] steps
  if s.isDir a then return ()
  else if s.isFile a then throw .fileExists
  else set { s with dirs := a :: s.dirs }

def makeDirs : List String → Action Unit
  | [] => return ()
  | step :: above =>
    let steps := (step :: above).reverse
    tryCatch (makeDir steps) fun
      | .notFound => do
        makeDirs above
        makeDir steps
      | e => throw e

def writeWithDirs (p : Place) (c : Content) : Action Unit := do
  if (← get).isThere ⟨p.above, false⟩ then write p c
  else do
    makeDirs p.above.reverse
    write p c

end FileStore

end TreeSelection
