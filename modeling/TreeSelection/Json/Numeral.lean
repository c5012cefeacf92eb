import TreeSelection.Json.Basic

namespace TreeSelection.Json

structure Numeral where
  negative : Bool
  whole : List Nat
  fraction : List Nat
  exponent : Option (Bool × List Nat)
  deriving DecidableEq

namespace Numeral

def appendDigits (m : Nat) : List Nat → Nat × Nat
  | [] => (m, 0)
  | d :: ds =>
    if m * 10 + d < Nat.pow 2 64 then appendDigits (m * 10 + d) ds else (m, ds.length + 1)

def exponentLimit : Nat := Nat.pow 2 31 - 1

def exponentValue (ds : List Nat) : Option Nat :=
  let n := ds.foldl (fun n d => if n ≤ exponentLimit then n * 10 + d else n) 0
  if n ≤ exponentLimit then some n else none

def isInteger (n : Numeral) : Bool := n.fraction.isEmpty && n.exponent.isNone

def float (n : Numeral) : Option Number :=
  let (m, excess) := appendDigits 0 n.whole
  let (m, rest) := appendDigits m n.fraction
  let e : Int := excess - (n.fraction.length - rest : Nat)
  let value := match n.exponent with
    | none => Number.Binary.ofDecimal m e
    | some (below, ds) =>
      match exponentValue ds with
      | some x => Number.Binary.ofDecimal m (if below then e - x else e + x)
      | none => if m = 0 ∨ below then some .zero else none
  value.map (.float n.negative)

/-- The number that a numeral stands for; `none` when it is out of range. Integers that the integer
forms do not hold, and the negative zero, are floating point numbers. -/
def value (n : Numeral) : Option Number :=
  let (m, excess) := appendDigits 0 n.whole
  if n.isInteger && excess == 0 then
    if !n.negative then some (.nat m)
    else if 0 < m ∧ m ≤ Nat.pow 2 63 then some (.negative m)
    else n.float
  else n.float

end Numeral

end TreeSelection.Json
