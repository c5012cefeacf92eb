import TreeSelection.Json.Numeral

namespace TreeSelection.Json

inductive Problem
  | endOfText
  | malformed
  deriving DecidableEq

inductive Token
  | openArray
  | closeArray
  | openObject
  | closeObject
  | comma
  | colon
  | null
  | bool (b : Bool)
  /-- A number; `none` stands for one that is out of range. -/
  | number (n : Option Number)
  /-- A text; `none` stands for one that holds half of a surrogate pair. -/
  | text (s : Option String)
  | badText (kept passed : Problem)
  | bad (kept passed : Problem)
  deriving DecidableEq

inductive NumeralPart
  | sign
  | zero
  | whole
  | point
  | fraction
  | mark
  | markSign
  | exponent
  deriving DecidableEq

structure Unfinished where
  before : List Char
  lead : Option Nat
  faulty : Bool
  deriving DecidableEq

inductive Scan
  | ready
  | word (rest : List Char) (token : Token)
  | numeral (part : NumeralPart) (n : Numeral)
  | plain (t : Unfinished)
  | escape (t : Unfinished)
  | unicode (t : Unfinished) (digits : List Char)
  | stopped
  deriving DecidableEq

def digit? (c : Char) : Option Nat := if c.isDigit then some (c.toNat - '0'.toNat) else none

def hexDigit? (c : Char) : Option Nat :=
  if c.isDigit then some (c.toNat - '0'.toNat)
  else if 'a' ≤ c ∧ c ≤ 'f' then some (c.toNat - 'a'.toNat + 10)
  else if 'A' ≤ c ∧ c ≤ 'F' then some (c.toNat - 'A'.toNat + 10)
  else none

def codeUnit? : List Char → Option Nat
  | [a, b, c, d] => do
    return ((← hexDigit? a) * 16 + (← hexDigit? b)) * 256 + (← hexDigit? c) * 16 + (← hexDigit? d)
  | _ => none

namespace Unfinished

def start : Unfinished := ⟨[], none, false⟩

def push (t : Unfinished) (c : Char) : Unfinished := { t with before := c :: t.before }

def abandon (t : Unfinished) : Unfinished :=
  if t.lead.isSome then { t with lead := none, faulty := true } else t

def token (t : Unfinished) : Token :=
  .text (if t.faulty then none else some (.ofList t.before.reverse))

def broken (t : Unfinished) (p : Problem) : Token :=
  .badText (if t.faulty then .malformed else p) p

def unit (t : Unfinished) (u : Nat) : Unfinished :=
  let isTrail := 0xdc00 ≤ u ∧ u ≤ 0xdfff
  match t.lead with
  | some l =>
    if isTrail then
      { t.push (.ofNat (0x10000 + (l - 0xd800) * 0x400 + (u - 0xdc00))) with lead := none }
    else { t with lead := none, faulty := true }
  | none =>
    if isTrail then { t with faulty := true }
    else if 0xd800 ≤ u ∧ u ≤ 0xdbff then { t with lead := some u }
    else t.push (.ofNat u)

end Unfinished

def unescape? : Char → Option Char
  | '"' => some '"'
  | '\\' => some '\\'
  | '/' => some '/'
  | 'b' => some '\x08'
  | 'f' => some '\x0c'
  | 'n' => some '\n'
  | 'r' => some '\r'
  | 't' => some '\t'
  | _ => none

def Numeral.feed (n : Numeral) (c : Char) : NumeralPart → Option (NumeralPart × Numeral)
  | .sign => do
    let d ← digit? c
    return (if d = 0 then .zero else .whole, { n with whole := [d] })
  | .zero => afterWhole
  | .whole => match digit? c with
    | some d => some (.whole, { n with whole := n.whole ++ [d] })
    | none => afterWhole
  | .point => do
    return (.fraction, { n with fraction := [← digit? c] })
  | .fraction => match digit? c with
    | some d => some (.fraction, { n with fraction := n.fraction ++ [d] })
    | none => if c == 'e' || c == 'E' then some (.mark, n) else none
  | .mark =>
    if c == '+' then some (.markSign, { n with exponent := some (false, []) })
    else if c == '-' then some (.markSign, { n with exponent := some (true, []) })
    else do return (.exponent, { n with exponent := some (false, [← digit? c]) })
  | .markSign => addDigit
  | .exponent => addDigit
where
  afterWhole : Option (NumeralPart × Numeral) :=
    if c == '.' then some (.point, n)
    else if c == 'e' || c == 'E' then some (.mark, n)
    else none
  addDigit : Option (NumeralPart × Numeral) := do
    let d ← digit? c
    let (below, ds) ← n.exponent
    return (.exponent, { n with exponent := some (below, ds ++ [d]) })

def NumeralPart.isLast : NumeralPart → Bool
  | .zero | .whole | .fraction | .exponent => true
  | .sign | .point | .mark | .markSign => false

def isSpace (c : Char) : Bool := c == ' ' || c == '\t' || c == '\n' || c == '\r'

namespace Scan

def first (c : Char) : List Token × Scan :=
  if isSpace c then ([], .ready)
  else match c with
    | '[' => ([.openArray], .ready)
    | ']' => ([.closeArray], .ready)
    | '{' => ([.openObject], .ready)
    | '}' => ([.closeObject], .ready)
    | ',' => ([.comma], .ready)
    | ':' => ([.colon], .ready)
    | '"' => ([], .plain .start)
    | 'n' => ([], .word ['u', 'l', 'l'] .null)
    | 't' => ([], .word ['r', 'u', 'e'] (.bool true))
    | 'f' => ([], .word ['a', 'l', 's', 'e'] (.bool false))
    | '-' => ([], .numeral .sign ⟨true, [], [], none⟩)
    | c => match Numeral.feed ⟨false, [], [], none⟩ c .sign with
      | some (part, n) => ([], .numeral part n)
      | none => ([.bad .malformed .malformed], .stopped)

def inText (t : Unfinished) (c : Char) : List Token × Scan :=
  if c == '\\' then ([], .escape t)
  else
    let t := t.abandon
    if c == '"' then ([t.token], .ready)
    else if c.toNat < 0x20 then ([t.broken .malformed], .stopped)
    else ([], .plain (t.push c))

def inEscape (t : Unfinished) (c : Char) : List Token × Scan :=
  if c == 'u' then ([], .unicode t [])
  else
    let t := t.abandon
    match unescape? c with
    | some d => ([], .plain (t.push d))
    | none => ([t.broken .malformed], .stopped)

/-- A character of an escape by number. Four bytes belong to it, whatever they are. -/
def inUnicode (t : Unfinished) (digits : List Char) (c : Char) : List Token × Scan :=
  let digits := digits ++ [c]
  if (String.ofList digits).utf8ByteSize < 4 then ([], .unicode t digits)
  else match codeUnit? digits with
    | some u => ([], .plain (t.unit u))
    | none => ([t.broken .malformed], .stopped)

def feed (c : Char) : Scan → List Token × Scan
  | .ready => first c
  | .word [] token => let (ts, s) := first c; (token :: ts, s)
  | .word (d :: rest) token =>
    if c == d then ([], .word rest token) else ([.bad .malformed .malformed], .stopped)
  | .numeral part n =>
    match n.feed c part with
    | some (part, n) => ([], .numeral part n)
    | none =>
      if !part.isLast || (part == .zero && c.isDigit) then ([.bad .malformed .malformed], .stopped)
      else let (ts, s) := first c; (.number n.value :: ts, s)
  | .plain t => inText t c
  | .escape t => inEscape t c
  | .unicode t digits => inUnicode t digits c
  | .stopped => ([], .stopped)

def finish : Scan → List Token
  | .ready | .stopped => []
  | .word [] token => [token]
  | .word (_ :: _) _ => [.bad .endOfText .endOfText]
  | .numeral part n => if part.isLast then [.number n.value] else [.bad .endOfText .malformed]
  | .plain t | .escape t | .unicode t _ => [t.broken .endOfText]

def run : Scan → List Char → List Token
  | s, [] => s.finish
  | s, c :: cs => (s.feed c).1 ++ run (s.feed c).2 cs

end Scan

def tokens (s : String) : List Token := Scan.run .ready s.toList

end TreeSelection.Json
