/-!
The tokens of a glob pattern and the texts that each of them admits. A pattern matches a path when
the path is a concatenation of texts admitted by its tokens, in order (`Matches`).
-/

namespace TreeSelection.Glob

inductive Token
  /-- Stars at the start of a segment with the slash after them: nothing, or whole directories. -/
  | anyDirs
  /-- The same with stars alone in the last segment behind it: at least one directory. -/
  | someDirs
  /-- A slash with the stars that end the pattern: nothing, or whatever lies below. -/
  | subtree
  | anything
  | star
  | one
  | lit (c : Char)
  deriving DecidableEq

def Token.Admits : Token → List Char → Prop
  | .anyDirs, w => w = [] ∨ w.getLast? = some '/'
  | .someDirs, w => w.getLast? = some '/'
  | .subtree, w => w = [] ∨ w.head? = some '/'
  | .anything, _ => True
  | .star, w => '/' ∉ w
  | .one, w => ∃ c, c ≠ '/' ∧ w = [c]
  | .lit c, w => w = [c]

def Matches : List Token → List Char → Prop
  | [], w => w = []
  | t :: ts, w => ∃ u v, w = u ++ v ∧ t.Admits u ∧ Matches ts v

inductive Lexeme
  | star
  | stars
  | one
  | lit (c : Char)
  deriving DecidableEq

def Lexeme.consStar : List Lexeme → List Lexeme
  | .star :: ls => .stars :: ls
  | .stars :: ls => .stars :: ls
  | ls => .star :: ls

def Lexeme.ofChars : List Char → List Lexeme
  | [] => []
  | c :: cs =>
    if c = '*' then consStar (ofChars cs)
    else if c = '?' then .one :: ofChars cs
    else .lit c :: ofChars cs

/-- The tokens of a pattern. The flag tells whether a segment starts here. -/
def Token.ofLexemes : Bool → List Lexeme → List Token
  | _, [] => []
  | true, [.stars, .lit '/', .stars] => [.someDirs, .subtree]
  | true, .stars :: .lit '/' :: ls => .anyDirs :: ofLexemes true ls
  | _, [.lit '/', .stars] => [.subtree]
  | _, .stars :: ls => .anything :: ofLexemes false ls
  | _, .star :: ls => .star :: ofLexemes false ls
  | _, .one :: ls => .one :: ofLexemes false ls
  | _, .lit c :: ls => .lit c :: ofLexemes (c == '/') ls

def Token.ofChars (cs : List Char) : List Token := ofLexemes true (Lexeme.ofChars cs)

/-- Which patterns the engine that runs them takes. Others are too large for it. -/
class Limit where
  fits : List Token → Bool

def Token.weight : Token → Nat
  | .lit c => 32 * c.utf8Size
  | .one => 1000
  | .star | .anything => 1072
  | .subtree | .someDirs => 1136
  | .anyDirs => 1168

/-- An engine that takes ten megabytes, by an estimate of what it needs. -/
instance : Limit where
  fits ts := ts.foldr (·.weight + ·) 0 ≤ 10 * 1024 * 1024

end TreeSelection.Glob
