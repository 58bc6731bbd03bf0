/-! A finite binary floating point number of 64 bits is its sign and the place of its magnitude among
all magnitudes, counted from zero up. That place is the number its lower 63 bits spell. -/

namespace Cattery

structure Double where
  negative : Bool
  /-- How many smaller magnitudes there are. -/
  rank : Nat
  /-- Magnitudes end below 2^1024. -/
  rank_lt : rank < 2047 * Nat.pow 2 52
deriving DecidableEq, Repr

namespace Double

def zero (negative : Bool) : Double :=
  ⟨negative, 0, by decide⟩

-- The power of natural numbers is named: written with an operator it would be another term
-- where monoids are known.

/-- The magnitude with a rank, as a multiple of 2^-1074. Below 2^53 every multiple is a double;
from there on the spacing doubles every 2^52 ranks. -/
def unitsOfRank (rank : Nat) : Nat :=
  if rank < Nat.pow 2 53 then rank
  else (Nat.pow 2 52 + rank % Nat.pow 2 52) * Nat.pow 2 (rank / Nat.pow 2 52 - 1)

def units (x : Double) : Nat :=
  unitsOfRank x.rank

def unitsInOne : Nat :=
  Nat.pow 2 1074

def divRound (n d : Nat) : Nat :=
  let q := n / d
  let r := n % d
  if 2 * r < d then q
  else if d < 2 * r then q + 1
  else if q % 2 == 0 then q else q + 1

/-- The rank of the double nearest to `n / d` units. Rounding up to the next power of two lands
on the first rank of the next spacing. -/
def nearestRank (n d : Nat) : Nat :=
  let whole := n / d
  if whole < Nat.pow 2 53 then divRound n d
  else
    let k := whole.log2 - 52
    k * Nat.pow 2 52 + divRound n (d * Nat.pow 2 k)

def ofRatio? (negative : Bool) (n d : Nat) : Option Double :=
  let rank := nearestRank (n * unitsInOne) d
  if h : rank < 2047 * Nat.pow 2 52 then some ⟨negative, rank, h⟩ else none

def mul? (x y : Double) : Option Double :=
  ofRatio? (x.negative != y.negative) (x.units * y.units) (unitsInOne * unitsInOne)

def div? (x y : Double) : Option Double :=
  ofRatio? (x.negative != y.negative) x.units y.units

def isZero (x : Double) : Bool :=
  x.rank == 0

def truncated (x : Double) : Nat :=
  x.units / unitsInOne

end Double

end Cattery
