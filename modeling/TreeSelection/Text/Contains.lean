namespace TreeSelection.Text

def containsChars : List Char → List Char → Bool
  | [], t => t.isEmpty
  | c :: cs, t => t.isPrefixOf (c :: cs) || containsChars cs t

def contains (s t : String) : Bool := containsChars s.toList t.toList

theorem containsChars_iff {s t : List Char} : containsChars s t = true ↔ t <:+: s := by
  induction s with
  | nil => simp [containsChars]
  | cons c cs ih => simp [containsChars, List.infix_cons_iff, ih]

end TreeSelection.Text
