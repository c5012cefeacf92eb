import TreeSelection.Json.Basic
import TreeSelection.Text.Quoted

namespace TreeSelection.Json

def escape (c : Char) : List Char :=
  match c with
  | '"' => ['\\', '"']
  | '\\' => ['\\', '\\']
  | '\x08' => ['\\', 'b']
  | '\t' => ['\\', 't']
  | '\n' => ['\\', 'n']
  | '\x0c' => ['\\', 'f']
  | '\r' => ['\\', 'r']
  | c =>
    if c.toNat < 0x20 then
      let digits := Text.hexadecimal c.toNat
      ['\\', 'u', '0', '0'] ++ List.replicate (2 - digits.length) '0' ++ digits
    else [c]

def textChars (s : String) : List Char := '"' :: s.toList.flatMap escape ++ ['"']

def boolText : Bool → String
  | true => "true"
  | false => "false"

mutual

def compactChars : Json → List Char
  | .null => "null".toList
  | .bool b => (boolText b).toList
  | .number n => n.text.toList
  | .text s => textChars s
  | .array vs => '[' :: compactItems vs ++ [']']
  | .object ms => '\x7b' :: compactMembers ms ++ ['\x7d']
termination_by structural v => v

def compactItems : List Json → List Char
  | [] => []
  | [v] => compactChars v
  | v :: vs => compactChars v ++ ',' :: compactItems vs
termination_by structural vs => vs

def compactMembers : List (String × Json) → List Char
  | [] => []
  | [m] => compactMember m
  | m :: ms => compactMember m ++ ',' :: compactMembers ms
termination_by structural ms => ms

def compactMember : String × Json → List Char
  | (name, v) => textChars name ++ ':' :: compactChars v
termination_by structural m => m

end

def compact (v : Json) : String := .ofList v.compactChars

def newline (level : Nat) : List Char := '\n' :: List.replicate (2 * level) ' '

mutual

def prettyChars (level : Nat) : Json → List Char
  | .array (v :: vs) => '[' :: prettyItems level (v :: vs) ++ newline level ++ [']']
  | .object (m :: ms) => '\x7b' :: prettyMembers level (m :: ms) ++ newline level ++ ['\x7d']
  | .array [] => ['[', ']']
  | .object [] => ['\x7b', '\x7d']
  | .null => "null".toList
  | .bool b => (boolText b).toList
  | .number n => n.text.toList
  | .text s => textChars s
termination_by structural v => v

def prettyItems (level : Nat) : List Json → List Char
  | [] => []
  | [v] => newline (level + 1) ++ prettyChars (level + 1) v
  | v :: vs => newline (level + 1) ++ prettyChars (level + 1) v ++ ',' :: prettyItems level vs
termination_by structural vs => vs

def prettyMembers (level : Nat) : List (String × Json) → List Char
  | [] => []
  | [m] => newline (level + 1) ++ prettyMember (level + 1) m
  | m :: ms => newline (level + 1) ++ prettyMember (level + 1) m ++ ',' :: prettyMembers level ms
termination_by structural ms => ms

def prettyMember (level : Nat) : String × Json → List Char
  | (name, v) => textChars name ++ ':' :: ' ' :: prettyChars level v
termination_by structural m => m

end

def pretty (v : Json) : String := .ofList (v.prettyChars 0)

end TreeSelection.Json
