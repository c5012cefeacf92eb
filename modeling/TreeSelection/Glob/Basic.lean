import TreeSelection.Glob.Matching
import TreeSelection.Path
import TreeSelection.Text.Blank

namespace TreeSelection

/-- A compiled pattern: its cleaned text and its tokens. A pattern that is too large has no tokens
and matches nothing. -/
structure Glob where
  pattern : String
  tokens : Option (List Glob.Token)
  deriving DecidableEq

namespace Glob

def cleaned (cs : List Char) : List Char :=
  ((Text.trimmed cs).map fun c => if c == '\\' then '/' else c).dropWhile (· == '/')

def clean (pattern : String) : String := .ofList (cleaned pattern.toList)

def compile [Limit] (pattern : String) : Glob :=
  let text := clean pattern
  let ts := Token.ofChars text.toList
  ⟨text, if Limit.fits ts then some ts else none⟩

def testCanonical (g : Glob) (path : String) : Bool :=
  g.tokens.any (accepts · path.toList)

def test (g : Glob) (path : String) : Bool := (Path.normalize path).any g.testCanonical

def compileSet [Limit] (patterns : List String) : List Glob :=
  (patterns.filter (!Text.isBlankText ·)).map compile

end Glob

end TreeSelection
