import TreeSelection.Number.Binary

/-!
The shortest decimal that reads back as a given binary number, and the text that shows it.
-/

namespace TreeSelection.Number

structure Decimal where
  digits : Nat
  exponent : Int
  deriving DecidableEq

namespace Decimal

def below (a : Nat) (i : Int) (n : Nat) (j : Int) : Bool :=
  a * power 10 i * power 2 (-j) < n * power 2 j * power 10 (-i)

def above (a : Nat) (i : Int) (n : Nat) (j : Int) : Bool :=
  n * power 2 j * power 10 (-i) < a * power 10 i * power 2 (-j)

def readsBack (d : Decimal) (x : Binary) : Bool :=
  let m := x.significand
  let lo := if m = power 2 52 ∧ Binary.leastExponent < x.exponent then 4 * m - 1 else 4 * m - 2
  let hi := 4 * m + 2
  let e := x.exponent - 2
  if m % 2 = 0 then !below d.digits d.exponent lo e && !above d.digits d.exponent hi e
  else above d.digits d.exponent lo e && below d.digits d.exponent hi e

def length (n : Nat) : Nat := (Nat.toDigits 10 n).length

def leading (a b : Nat) : Int :=
  let p : Int := length a - length b
  if b * power 10 p ≤ a * power 10 (-p) then p else p - 1

def onGrid (x : Binary) (k : Int) : Option Decimal :=
  let a := x.numerator * power 10 (-k)
  let b := x.denominator * power 10 k
  let near := divEven a b
  let far := if near = a / b then near + 1 else near - 1
  [near, far].map (⟨·, k⟩) |>.find? (readsBack · x)

def shortest (x : Binary) : Decimal :=
  let p := leading x.numerator x.denominator
  ((List.range 17).findSome? fun n : Nat => onGrid x (p - n)).getD
    ⟨x.numerator * power 5 (-x.exponent), min 0 x.exponent⟩

end Decimal

def isZeroDigit (c : Char) : Bool := c == '0'

def Decimal.text (d : Decimal) : String :=
  let all := Nat.toDigits 10 d.digits
  let p : Int := d.exponent + all.length - 1
  let ds := (all.reverse.dropWhile isZeroDigit).reverse
  .ofList <|
    if 0 ≤ p ∧ p ≤ 15 then
      let whole := ds.take (p.toNat + 1)
      let rest := ds.drop (p.toNat + 1)
      whole ++ List.replicate (p.toNat + 1 - whole.length) '0' ++ ['.'] ++
        (if rest.isEmpty then ['0'] else rest)
    else if -5 ≤ p ∧ p < 0 then
      ['0', '.'] ++ List.replicate (-p - 1).toNat '0' ++ ds
    else
      let exponent := (if p < 0 then '-' else '+') :: Nat.toDigits 10 p.natAbs
      ds.take 1 ++ (if ds.length ≤ 1 then [] else '.' :: ds.drop 1) ++ 'e' :: exponent

def floatText (negative : Bool) (x : Binary) : String :=
  let text := if x.isZero then "0.0" else (Decimal.shortest x).text
  if negative then "-" ++ text else text

end TreeSelection.Number
