import TreeSelection.Text.Quoted

namespace TreeSelection

inductive Warning
  | invalidPath (path : String)
  | fileWithChildren (path : String)
  | keptDirectory (path : String)
  | kindConflict (path : String)
  | unknownFile (path : String)
  | unknownDirectory (path : String)
  deriving DecidableEq

namespace Warning

def message : Warning → String
  | invalidPath p => "Skipping repository entry with invalid path " ++ Text.quoted p
  | fileWithChildren p =>
    "Path " ++ Text.quoted p ++
      " was listed as a file but has children; treating it as a directory"
  | keptDirectory p =>
    "Path " ++ Text.quoted p ++ " was listed as a file but has children; keeping it as a directory"
  | kindConflict p =>
    "Path " ++ Text.quoted p ++ " listed as both file and directory; the later entry wins"
  | unknownFile p => "toggle_file called for unknown file " ++ Text.quoted p
  | unknownDirectory p => "toggle_directory called for unknown directory " ++ Text.quoted p

end Warning

end TreeSelection
