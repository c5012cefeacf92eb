import TreeSelection.Number.Rounding

namespace TreeSelection.FileSize

def rounded (n : Nat) : Nat :=
  let unit := Nat.pow 2 (n.log2 - 52)
  Number.divEven n unit * unit

def unitFrom (size unit : Nat) : List String → Nat × String
  | [] => (unit, "")
  | [name] => (unit, name)
  | name :: names => if 1024 * unit ≤ size then unitFrom size (1024 * unit) names else (unit, name)

def unit (size : Nat) : Nat × String := unitFrom size 1024 ["KB", "MB", "GB", "TB"]

def tenths (size : Nat) : Nat := Number.divEven (10 * size) (unit size).1

def text (size : Nat) : String :=
  if size < 1024 then toString size ++ " B"
  else
    let size := rounded size
    let t := tenths size
    toString (t / 10) ++ "." ++ toString (t % 10) ++ " " ++ (unit size).2

end TreeSelection.FileSize
