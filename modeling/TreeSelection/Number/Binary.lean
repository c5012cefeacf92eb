import TreeSelection.Number.Rounding

namespace TreeSelection.Number

def power (base : Nat) (exponent : Int) : Nat := base.pow exponent.toNat

structure Binary where
  significand : Nat
  exponent : Int
  deriving DecidableEq

namespace Binary

def leastExponent : Int := -1074

def scaled (a b : Nat) (e : Int) : Nat :=
  divEven (a * power 2 (-e)) (b * power 2 e)

def exponentOf (a b : Nat) : Int :=
  let e := (a.log2 : Int) - b.log2 - 53
  let e := if b * power 2 e * power 2 53 ≤ a * power 2 (-e) then e + 1 else e
  max leastExponent e

def nearest (a b : Nat) : Option Binary :=
  let e := exponentOf a b
  let m := scaled a b e
  let (m, e) := if m = power 2 53 then (power 2 52, e + 1) else (m, e)
  if e > 971 then none else some ⟨m, e⟩

def zero : Binary := ⟨0, leastExponent⟩

def isZero (x : Binary) : Bool := x.significand == 0

def numerator (x : Binary) : Nat := x.significand * power 2 x.exponent

def denominator (x : Binary) : Nat := power 2 (-x.exponent)

def ofNat (n : Nat) : Option Binary := nearest n 1

def mul (x y : Binary) : Option Binary :=
  nearest (x.numerator * y.numerator) (x.denominator * y.denominator)

def div (x y : Binary) : Option Binary :=
  nearest (x.numerator * y.denominator) (x.denominator * y.numerator)

def ofDecimal (significand : Nat) (exponent : Int) : Option Binary := do
  let m ← ofNat significand
  if m.isZero then return zero
  if exponent > 308 then none
  else if 0 ≤ exponent then m.mul (← ofNat (power 10 exponent))
  else if -308 ≤ exponent then m.div (← ofNat (power 10 (-exponent)))
  else if -616 ≤ exponent then
    let n ← m.div (← ofNat (power 10 308))
    n.div (← ofNat (power 10 (-exponent - 308)))
  else return zero

end Binary

end TreeSelection.Number
