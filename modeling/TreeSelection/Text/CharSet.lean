namespace TreeSelection

/-- A set of characters: below the first edge nothing belongs to it, and each edge, in increasing
order, starts or ends a run of members. -/
structure CharSet where
  edges : List Nat
  deriving DecidableEq

def CharSet.contains (s : CharSet) (c : Char) : Bool :=
  s.edges.countP (· ≤ c.toNat) % 2 == 1

end TreeSelection
