import TreeSelection.Json.Token

namespace TreeSelection.Json

inductive Ending
  | closed
  | stopped (p : Problem)
  deriving DecidableEq

inductive Reading
  | null
  | bool (b : Bool)
  | number (n : Option Number)
  | text (s : Option String)
  | array (items : List Reading) (ending : Ending)
  | object (members : List (Reading × Reading)) (ending : Ending)
  | badText (kept passed : Problem)
  | bad (kept passed : Problem)
  | absent (p : Problem)

namespace Reading

inductive Frame
  | items (before : List Reading)
  | members (before : List (Reading × Reading)) (key : Reading)

inductive Place
  | value (outer : List Frame)
  | firstItem (outer : List Frame)
  | key (first : Bool) (before : List (Reading × Reading)) (outer : List Frame)
  | colon (before : List (Reading × Reading)) (key : Reading) (outer : List Frame)
  | done (r : Reading) (outer : List Frame)

def cut (p : Problem) (r : Reading) : List Frame → Reading
  | [] => r
  | .items before :: outer => cut p (.array (r :: before).reverse (.stopped p)) outer
  | .members before key :: outer =>
    cut p (.object ((key, r) :: before).reverse (.stopped p)) outer

def cutKey (p : Problem) (key : Reading) (before : List (Reading × Reading)) (outer : List Frame) :
    Reading :=
  cut p (.object ((key, .absent p) :: before).reverse (.stopped p)) outer

def ofToken? : Token → Option Reading
  | .null => some .null
  | .bool b => some (.bool b)
  | .number n => some (.number n)
  | .text s => some (.text s)
  | .badText kept passed => some (.badText kept passed)
  | .bad kept passed => some (.bad kept passed)
  | _ => none

def ofKeyToken : Token → Reading
  | .badText kept passed => .badText kept passed
  | _ => .absent .malformed

abbrev Step := Except Reading Place

def stepValue (outer : List Frame) : Token → Step
  | .openArray => .ok (.firstItem outer)
  | .openObject => .ok (.key true [] outer)
  | .badText kept passed => .error (cut .malformed (.badText kept passed) outer)
  | .bad kept passed => .error (cut .malformed (.bad kept passed) outer)
  | t => match ofToken? t with
    | some r => .ok (.done r outer)
    | none => .error (cut .malformed (.absent .malformed) outer)

def step (t : Token) : Place → Step
  | .value outer => stepValue outer t
  | .firstItem outer =>
    if t = .closeArray then .ok (.done (.array [] .closed) outer)
    else stepValue (.items [] :: outer) t
  | .key first before outer => match t with
    | .text s => .ok (.colon before (.text s) outer)
    | .closeObject =>
      if first then .ok (.done (.object [] .closed) outer)
      else .error (cutKey .malformed (.absent .malformed) before outer)
    | t => .error (cutKey .malformed (ofKeyToken t) before outer)
  | .colon before key outer =>
    if t = .colon then .ok (.value (.members before key :: outer))
    else .error (cutKey .malformed key before outer)
  | .done r [] => .error r
  | .done r (.items before :: outer) => match t with
    | .comma => .ok (.value (.items (r :: before) :: outer))
    | .closeArray => .ok (.done (.array (r :: before).reverse .closed) outer)
    | _ => .error (cut .malformed r (.items before :: outer))
  | .done r (.members before key :: outer) => match t with
    | .comma => .ok (.key false ((key, r) :: before) outer)
    | .closeObject => .ok (.done (.object ((key, r) :: before).reverse .closed) outer)
    | _ => .error (cut .malformed r (.members before key :: outer))

def finish : Place → Reading
  | .value outer => cut .endOfText (.absent .endOfText) outer
  | .firstItem outer => cut .endOfText (.array [] (.stopped .endOfText)) outer
  | .key _ before outer => cutKey .endOfText (.absent .endOfText) before outer
  | .colon before key outer => cutKey .endOfText key before outer
  | .done r outer => cut .endOfText r outer

def run (place : Place) : List Token → Reading × Bool
  | [] => (finish place, false)
  | t :: ts => match step t place with
    | .ok place => run place ts
    | .error r => (r, true)

def ofText (s : String) : Reading × Bool := run (.value []) (tokens s)

end Reading

end TreeSelection.Json
