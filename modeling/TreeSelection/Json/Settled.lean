import TreeSelection.Json.Basic
import TreeSelection.Text.TextSet

namespace TreeSelection.Json

def lastValue? (name : String) (ms : List (String × Json)) : Option Json :=
  ms.reverse.lookup name

def arrange (ms : List (String × Json)) : List (String × Json) :=
  (TextSet.ofList (ms.map (·.1))).toList.filterMap fun name =>
    (lastValue? name ms).map (name, ·)

mutual

def settled : Json → Json
  | .array vs => .array (settledItems vs)
  | .object ms => .object (arrange (settledMembers ms))
  | v => v
termination_by structural v => v

def settledItems : List Json → List Json
  | [] => []
  | v :: vs => settled v :: settledItems vs
termination_by structural vs => vs

def settledMembers : List (String × Json) → List (String × Json)
  | [] => []
  | m :: ms => settledMember m :: settledMembers ms
termination_by structural ms => ms

def settledMember : String × Json → String × Json
  | (name, v) => (name, settled v)
termination_by structural m => m

end

end TreeSelection.Json
