import TreeSelection.Json.Error

namespace TreeSelection

inductive InputError
  | notARepository (text : String)
  | unknownFormat (text : String)
  | json (e : Json.Error)
  deriving DecidableEq

namespace Json

def Problem.message : Problem → String
  | endOfText => "the text ends too early"
  | malformed => "the text is not JSON"

def Error.message : Error → String
  | problem p => p.message
  | mismatch m => m.message

end Json

def InputError.message : InputError → String
  | notARepository text => "Invalid repository URL: " ++ text
  | unknownFormat text => "Unknown export format: " ++ text
  | json e => "JSON error: " ++ e.message

end TreeSelection
