import Cattery.Decimal.Double

namespace Cattery.Double

structure Decimal where
  digits : Nat
  exponent : Int
deriving DecidableEq, Repr

def overPower (n : Nat) : Int → Nat × Nat
  | .ofNat k => (n, Nat.pow 10 k)
  | .negSucc k => (n * Nat.pow 10 (k + 1), 1)

/-- Whether a decimal number, given in doubled units as a fraction, reads as the double of a
rank. The bounds are halfway to the neighbours; they belong to an even rank. -/
def readsAs (rank : Nat) (value : Nat × Nat) : Bool :=
  let here := unitsOfRank rank
  let below := here + unitsOfRank (rank - 1)
  let above := here + unitsOfRank (rank + 1)
  let (n, d) := value
  if rank % 2 == 0 then below * d ≤ n && n ≤ above * d
  else below * d < n && n < above * d

def Decimal.doubledUnits (x : Decimal) : Nat × Nat :=
  match x.exponent with
  | .ofNat k => (2 * x.digits * Nat.pow 10 k * unitsInOne, 1)
  | .negSucc k => (2 * x.digits * unitsInOne, Nat.pow 10 (k + 1))

/-- The decimal exponent of a magnitude above zero: the power of ten of its first digit. The
estimate from the binary exponent is short by at most one. -/
def leadingPower (units : Nat) : Int :=
  let guess : Int := ((units.log2 : Int) - 1074) * 30103 / 100000
  let reaches (k : Int) : Bool :=
    match k with
    | .ofNat k => Nat.pow 10 k * unitsInOne ≤ units
    | .negSucc k => unitsInOne ≤ units * Nat.pow 10 (k + 1)
  if reaches (guess + 1) then guess + 1
  else if reaches guess then guess
  else guess - 1

def neighbours (units : Nat) (places : Nat) : List Decimal :=
  let exponent := leadingPower units - (places : Int) + 1
  let (n, d) := overPower units exponent
  let down := n / (d * unitsInOne)
  [⟨divRound n (d * unitsInOne), exponent⟩, ⟨down, exponent⟩, ⟨down + 1, exponent⟩]

/-- The first decimal with `places` digits or more that reads back as a magnitude. The nearest
one is not always the one that does: below a power of two the doubles are closer together. -/
def shortestFrom (rank units : Nat) : Nat → Nat → Decimal
  | 0, places => (neighbours units places).headD ⟨0, 0⟩
  | more + 1, places =>
    match (neighbours units places).find? fun x => readsAs rank x.doubledUnits with
    | some x => x
    | none => shortestFrom rank units more (places + 1)

def shortest (x : Double) : Decimal :=
  shortestFrom x.rank x.units 16 1

def Decimal.normalized : Nat → Decimal → Decimal
  | 0, x => x
  | fuel + 1, x =>
    if x.digits != 0 && x.digits % 10 == 0 then normalized fuel ⟨x.digits / 10, x.exponent + 1⟩
    else x

/-- The digits of a decimal with a point: positional while the first digit has a power from -5 to
15, otherwise with an exponent. -/
def Decimal.text (x : Decimal) : List Char :=
  let digits := Nat.toDigits 10 x.digits
  let count := digits.length
  let lead : Int := x.exponent + count - 1
  if x.digits == 0 then ['0', '.', '0']
  else if 0 ≤ lead && lead ≤ 15 then
    let whole := lead.toNat + 1
    if count ≤ whole then digits ++ List.replicate (whole - count) '0' ++ ['.', '0']
    else digits.take whole ++ '.' :: digits.drop whole
  else if -5 ≤ lead && lead < 0 then
    ['0', '.'] ++ List.replicate ((-lead).toNat - 1) '0' ++ digits
  else
    let mantissa := if count == 1 then digits else digits.take 1 ++ '.' :: digits.drop 1
    let sign := if lead < 0 then ['-'] else ['+']
    mantissa ++ 'e' :: sign ++ Nat.toDigits 10 lead.natAbs

def text (x : Double) : List Char :=
  (if x.negative then ['-'] else []) ++
    if x.isZero then ['0', '.', '0'] else (x.shortest.normalized 17).text

end Cattery.Double
