import Cattery.Decimal.Double

/-! Two readings of decimal text. `Numeral` is a number as JSON writes it, together with the value a
fast reader gives it: digits are collected while they fit 64 bits, and the sum is scaled by one
power of ten. `wholePart?` reads the decimal text of other sources and rounds once. -/

namespace Cattery

def decimalDigit? (c : Char) : Option Nat :=
  if '0' ≤ c && c ≤ '9' then some (c.toNat - 48) else none

def takeDigits (text : List Char) : List Nat × List Char :=
  match text with
  | [] => ([], [])
  | c :: rest =>
    match decimalDigit? c with
    | none => ([], c :: rest)
    | some d =>
      let (digits, after) := takeDigits rest
      (d :: digits, after)

def natOfDigits (digits : List Nat) : Nat :=
  digits.foldl (fun n d => 10 * n + d) 0

structure Numeral where
  negative : Bool
  whole : List Nat
  /-- The digits after the point; there is no point when there are none. -/
  fraction : List Nat
  exponent : Option Int
deriving DecidableEq, Repr

namespace Numeral

def limit : Nat :=
  UInt64.size

def absorb (n : Nat) : List Nat → Nat × List Nat
  | [] => (n, [])
  | d :: rest =>
    if 10 * n + d < limit then absorb (10 * n + d) rest else (n, d :: rest)

/-- The collected digits and the power of ten they are scaled by. Digits before the point that no
longer fit count for the power; digits after it that no longer fit are dropped. -/
def significand (x : Numeral) : Nat × Int :=
  let (n, extra) := absorb 0 x.whole
  let (m, dropped) := absorb n x.fraction
  (m, (extra.length : Int) - ((x.fraction.length - dropped.length : Nat) : Int) +
    x.exponent.getD 0)

def power (k : Nat) : Double :=
  (Double.ofRatio? false (Nat.pow 10 k) 1).getD (Double.zero false)

/-- A double divided by powers of ten that are too large for one step. It is zero after three of
them. -/
def shrink : Nat → Double → Nat → Option Double
  | 0, x, k => x.div? (power (min k 308))
  | steps + 1, x, k =>
    if k ≤ 308 then x.div? (power k)
    else if x.isZero then some x
    else (x.div? (power 308)).bind fun y => shrink steps y (k - 308)

def scale (x : Double) (k : Int) : Option Double :=
  match k with
  | .ofNat k =>
    if k ≤ 308 then x.mul? (power k)
    else if x.isZero then some x else none
  | .negSucc k => shrink 3 x (k + 1)

def double? (x : Numeral) : Option Double :=
  let (n, k) := x.significand
  ((Double.ofRatio? false n 1).bind fun y => scale y k).map fun y =>
    { y with negative := x.negative }

/-- The integer a numeral reads as: one without point or exponent that fits 64 bits, with a sign
or without. Zero with a minus sign is not an integer. -/
def int? (x : Numeral) : Option Int :=
  if x.fraction.isEmpty && x.exponent.isNone then
    let n := natOfDigits x.whole
    if x.negative then
      if 0 < n && n ≤ UInt64.size / 2 then some (-(n : Int)) else none
    else if n < limit then some n else none
  else none

end Numeral

def readExponent? (text : List Char) : Option (Int × List Char) :=
  let (negative, rest) :=
    match text with
    | '-' :: rest => (true, rest)
    | '+' :: rest => (false, rest)
    | _ => (false, text)
  match takeDigits rest with
  | ([], _) => none
  | (digits, after) =>
    let n : Int := natOfDigits digits
    some (if negative then -n else n, after)

def readNumeral? (text : List Char) : Option (Numeral × List Char) := do
  let (negative, text) :=
    match text with
    | '-' :: rest => (true, rest)
    | _ => (false, text)
  let (whole, text) ←
    match takeDigits text with
    | ([], _) => none
    -- a number does not start with a zero that another digit follows
    | (0 :: _ :: _, _) => none
    | found => some found
  let (fraction, text) ←
    match text with
    | '.' :: rest =>
      match takeDigits rest with
      | ([], _) => none
      | found => some found
    | _ => some ([], text)
  let (exponent, text) ←
    match text with
    | 'e' :: rest | 'E' :: rest => (readExponent? rest).map fun (k, after) => (some k, after)
    | _ => some (none, text)
  some (⟨negative, whole, fraction, exponent⟩, text)

/-- The integer part of a number that decimal text spells, when the number is a finite double
that is not below zero. Digits may miss on one side of the point. The number is rounded to a
double before its fraction is dropped. -/
def wholePart? (text : List Char) : Option Nat := do
  let (negative, text) :=
    match text with
    | '-' :: rest => (true, rest)
    | '+' :: rest => (false, rest)
    | _ => (false, text)
  let (whole, text) := takeDigits text
  let (fraction, text) :=
    match text with
    | '.' :: rest => takeDigits rest
    | _ => ([], text)
  if whole.isEmpty && fraction.isEmpty then none
  let (exponent, text) ←
    match text with
    | 'e' :: rest | 'E' :: rest => readExponent? rest
    | _ => some (0, text)
  if !text.isEmpty then none
  let digits := natOfDigits (whole ++ fraction)
  if digits == 0 then some 0
  else
    let scale : Int := exponent - fraction.length
    let size : Int := (digits.log2 : Int) / 3 + 1 + scale
    -- far out of range the digits do not matter, and their power is not built
    if size < -400 then some 0
    else if 400 < scale then none
    else
      let x ←
        match scale with
        | .ofNat k => Double.ofRatio? negative (digits * Nat.pow 10 k) 1
        | .negSucc k => Double.ofRatio? negative digits (Nat.pow 10 (k + 1))
      if negative && !x.isZero then none else some x.truncated

end Cattery
