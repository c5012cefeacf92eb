import TreeSelection.Json.Token
import TreeSelection.Json.Writer

namespace TreeSelection.Json

namespace Numeral

def digitChars (ds : List Nat) : List Char := ds.map Nat.digitChar

structure IsWhole (ds : List Nat) : Prop where
  digits : ∀ d ∈ ds, d < 10
  ne_nil : ds ≠ []
  no_leading_zero : ds.head? = some 0 → ds = [0]

def signs : Bool → List (List Char)
  | false => [[], ['+']]
  | true => [['-']]

inductive FractionSpelled : List Nat → List Char → Prop
  | none : FractionSpelled [] []
  | some {ds : List Nat} (digits : ∀ d ∈ ds, d < 10) (ne_nil : ds ≠ []) :
      FractionSpelled ds ('.' :: digitChars ds)

inductive ExponentSpelled : Option (Bool × List Nat) → List Char → Prop
  | none : ExponentSpelled none []
  | some {mark : Char} {below : Bool} {sign : List Char} {ds : List Nat}
      (mark_eq : mark = 'e' ∨ mark = 'E') (mem_signs : sign ∈ signs below)
      (digits : ∀ d ∈ ds, d < 10) (ne_nil : ds ≠ []) :
      ExponentSpelled (some (below, ds)) (mark :: (sign ++ digitChars ds))

inductive Spelled : Numeral → List Char → Prop
  | parts {negative : Bool} {whole fraction : List Nat} {exponent : Option (Bool × List Nat)}
      {fs es : List Char} (isWhole : IsWhole whole) (hfraction : FractionSpelled fraction fs)
      (hexponent : ExponentSpelled exponent es) :
      Spelled ⟨negative, whole, fraction, exponent⟩
        ((if negative then ['-'] else []) ++ (digitChars whole ++ (fs ++ es)))

end Numeral

inductive CharSpelled : Char → List Char → Prop
  | plain {c : Char} (not_control : 0x20 ≤ c.toNat) (ne_quote : c ≠ '"') (ne_backslash : c ≠ '\\') :
      CharSpelled c [c]
  | escape {c d : Char} (h : unescape? d = some c) : CharSpelled c ['\\', d]
  | unit {c : Char} {ds : List Char} (h : codeUnit? ds = some c.toNat) :
      CharSpelled c ('\\' :: 'u' :: ds)
  | pair {c : Char} {ds es : List Char} {lead trail : Nat} (hlead : codeUnit? ds = some lead)
      (htrail : codeUnit? es = some trail) (isLead : 0xd800 ≤ lead ∧ lead ≤ 0xdbff)
      (isTrail : 0xdc00 ≤ trail ∧ trail ≤ 0xdfff)
      (toNat_eq : c.toNat = 0x10000 + (lead - 0xd800) * 0x400 + (trail - 0xdc00)) :
      CharSpelled c ('\\' :: 'u' :: ds ++ '\\' :: 'u' :: es)

inductive CharsSpelled : List Char → List Char → Prop
  | nil : CharsSpelled [] []
  | cons {c : Char} {cs s t : List Char} (head : CharSpelled c s) (tail : CharsSpelled cs t) :
      CharsSpelled (c :: cs) (s ++ t)

inductive Token.Spelled : Token → List Char → Prop
  | openArray : Spelled .openArray ['[']
  | closeArray : Spelled .closeArray [']']
  | openObject : Spelled .openObject ['\x7b']
  | closeObject : Spelled .closeObject ['\x7d']
  | comma : Spelled .comma [',']
  | colon : Spelled .colon [':']
  | null : Spelled .null "null".toList
  | bool {b : Bool} : Spelled (.bool b) (boolText b).toList
  | number {n : Numeral} {cs : List Char} (h : n.Spelled cs) : Spelled (.number n.value) cs
  | text {s : String} {cs : List Char} (h : CharsSpelled s.toList cs) :
      Spelled (.text (some s)) ('"' :: (cs ++ ['"']))

inductive IsBody : List Char → Prop
  | nil : IsBody []
  | plain {c : Char} {cs : List Char} (not_control : 0x20 ≤ c.toNat) (ne_quote : c ≠ '"')
      (ne_backslash : c ≠ '\\') (tail : IsBody cs) : IsBody (c :: cs)
  | escape {c d : Char} {cs : List Char} (h : unescape? d = some c) (tail : IsBody cs) :
      IsBody ('\\' :: d :: cs)
  | unit {ds cs : List Char} {u : Nat} (h : codeUnit? ds = some u) (tail : IsBody cs) :
      IsBody ('\\' :: 'u' :: (ds ++ cs))

/-- The spellings of a token and, where a text need not be one of characters, also those in which
some half of a pair stands alone. -/
inductive Token.Written : Token → List Char → Prop
  | spelled {t : Token} {cs : List Char} (h : t.Spelled cs) : Written t cs
  | halves {cs : List Char} (body : IsBody cs) (not_spelled : ∀ s, ¬CharsSpelled s cs) :
      Written (.text none) ('"' :: (cs ++ ['"']))

def IsSpaces (cs : List Char) : Prop := ∀ c ∈ cs, isSpace c = true

theorem isSpaces_nil : IsSpaces [] := fun _ hc => nomatch hc

inductive Spelled : List Token → List Char → Prop
  | nil {spaces : List Char} (h : IsSpaces spaces) : Spelled [] spaces
  | cons {t : Token} {ts : List Token} {spaces cs rest : List Char} (h : IsSpaces spaces)
      (head : t.Spelled cs) (tail : Spelled ts rest) : Spelled (t :: ts) (spaces ++ (cs ++ rest))

inductive Written : List Token → List Char → Prop
  | nil {spaces : List Char} (h : IsSpaces spaces) : Written [] spaces
  | cons {t : Token} {ts : List Token} {spaces cs rest : List Char} (h : IsSpaces spaces)
      (head : t.Written cs) (tail : Written ts rest) : Written (t :: ts) (spaces ++ (cs ++ rest))

mutual

def tokensOf : Json → List Token
  | .null => [.null]
  | .bool b => [.bool b]
  | .number n => [.number (some n)]
  | .text s => [.text (some s)]
  | .array vs => .openArray :: (tokensOfItems vs ++ [.closeArray])
  | .object ms => .openObject :: (tokensOfMembers ms ++ [.closeObject])
termination_by structural v => v

def tokensOfItems : List Json → List Token
  | [] => []
  | [v] => tokensOf v
  | v :: vs => tokensOf v ++ .comma :: tokensOfItems vs
termination_by structural vs => vs

def tokensOfMembers : List (String × Json) → List Token
  | [] => []
  | [m] => tokensOfMember m
  | m :: ms => tokensOfMember m ++ .comma :: tokensOfMembers ms
termination_by structural ms => ms

def tokensOfMember : String × Json → List Token
  | (name, v) => .text (some name) :: .colon :: tokensOf v
termination_by structural m => m

end

def IsText (v : Json) (s : String) : Prop := Spelled (tokensOf v) s.toList

theorem Spelled.prepend_spaces {ts : List Token} {spaces cs : List Char} (h : Spelled ts cs)
    (hspaces : IsSpaces spaces) : Spelled ts (spaces ++ cs) := by
  have happend {more : List Char} (hmore : IsSpaces more) : IsSpaces (spaces ++ more) :=
    fun c hc => (List.mem_append.1 hc).elim (hspaces c) (hmore c)
  cases h with
  | nil h => exact .nil (happend h)
  | cons h head tail =>
    rw [← List.append_assoc]
    exact .cons (happend h) head tail

theorem Spelled.append {ts us : List Token} {cs ds : List Char} (h : Spelled ts cs)
    (h' : Spelled us ds) : Spelled (ts ++ us) (cs ++ ds) := by
  induction h with
  | nil h => exact h'.prepend_spaces h
  | cons h head _ ih =>
    rw [List.append_assoc, List.append_assoc]
    exact .cons h head ih

theorem Spelled.written {ts : List Token} {cs : List Char} (h : Spelled ts cs) : Written ts cs := by
  induction h with
  | nil h => exact .nil h
  | cons h head _ ih => exact .cons h (.spelled head) ih

theorem Token.Spelled.cons {t : Token} {ts : List Token} {cs rest : List Char} (h : t.Spelled cs)
    (hrest : Json.Spelled ts rest) : Json.Spelled (t :: ts) (cs ++ rest) :=
  .cons isSpaces_nil h hrest

theorem Token.Spelled.only {t : Token} {cs : List Char} (h : t.Spelled cs) :
    Json.Spelled [t] cs := by
  simpa using h.cons (.nil isSpaces_nil)

end TreeSelection.Json
