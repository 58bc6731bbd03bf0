namespace Cattery.Base64

def alphabet : List Char :=
  "ABCDEFGHIJKLMNOPQRSTUVWXYZabcdefghijklmnopqrstuvwxyz0123456789+/".toList

def digit (n : Nat) : Char :=
  alphabet.getD n 'A'

def digitValue? (c : Char) : Option Nat :=
  let n := c.toNat
  if 'A' ≤ c && c ≤ 'Z' then some (n - 65)
  else if 'a' ≤ c && c ≤ 'z' then some (n - 71)
  else if '0' ≤ c && c ≤ '9' then some (n + 4)
  else if c == '+' then some 62
  else if c == '/' then some 63
  else none

def encodeChars : List UInt8 → List Char
  | [] => []
  | [a] =>
    let n := a.toNat * 16
    [digit (n / 64), digit (n % 64), '=', '=']
  | [a, b] =>
    let n := (a.toNat * 256 + b.toNat) * 4
    [digit (n / 4096), digit (n / 64 % 64), digit (n % 64), '=']
  | a :: b :: c :: rest =>
    let n := (a.toNat * 256 + b.toNat) * 256 + c.toNat
    digit (n / 262144) :: digit (n / 4096 % 64) :: digit (n / 64 % 64) :: digit (n % 64) ::
      encodeChars rest

def encode (bytes : List UInt8) : String :=
  String.ofList (encodeChars bytes)

/-- The bytes of four last digits, of which the last ones may be padding. -/
def lastGroup? (a b c d : Char) : Option (List UInt8) :=
  match digitValue? a, digitValue? b with
  | some a, some b =>
    if c == '=' && d == '=' then
      if b % 16 == 0 then some [UInt8.ofNat (a * 4 + b / 16)] else none
    else
      match digitValue? c with
      | none => none
      | some c =>
        let n := (a * 64 + b) * 64 + c
        if d == '=' then
          if c % 4 == 0 then some [UInt8.ofNat (n / 1024), UInt8.ofNat (n / 4 % 256)] else none
        else
          (digitValue? d).map fun d =>
            let n := n * 64 + d
            [UInt8.ofNat (n / 65536), UInt8.ofNat (n / 256 % 256), UInt8.ofNat (n % 256)]
  | _, _ => none

def fullGroup? (a b c d : Char) : Option (List UInt8) :=
  match digitValue? a, digitValue? b, digitValue? c, digitValue? d with
  | some a, some b, some c, some d =>
    let n := ((a * 64 + b) * 64 + c) * 64 + d
    some [UInt8.ofNat (n / 65536), UInt8.ofNat (n / 256 % 256), UInt8.ofNat (n % 256)]
  | _, _, _, _ => none

def decodeChars? : List Char → Option (List UInt8)
  | [] => some []
  | [a, b, c, d] => lastGroup? a b c d
  | a :: b :: c :: d :: rest =>
    match fullGroup? a b c d, decodeChars? rest with
    | some group, some bytes => some (group ++ bytes)
    | _, _ => none
  | _ => none

def decode? (text : String) : Option (List UInt8) :=
  decodeChars? text.toList

end Cattery.Base64
