import TreeSelection.Text.LowerCase

namespace TreeSelection.Text

def foldedChar : Char → List Char
  | 'ſ' => ['s']
  | 'ß' => ['s', 's']
  | 'ﬀ' => ['f', 'f']
  | 'ﬁ' => ['f', 'i']
  | 'ﬂ' => ['f', 'l']
  | 'ﬃ' => ['f', 'f', 'i']
  | 'ﬄ' => ['f', 'f', 'l']
  | 'ﬅ' => ['s', 't']
  | 'ﬆ' => ['s', 't']
  | c => [c]

def caseless (s : String) : String := .ofList ((lowerCase s).toList.flatMap foldedChar)

end TreeSelection.Text
