/-! Bytes are read by a machine that holds the sequence it is in. Every malformed part, taken as long
as it can still be the start of a well-formed sequence, is one gap in the text. -/

namespace Cattery.Utf8

def encodeChars (text : List Char) : List UInt8 :=
  text.flatMap String.utf8EncodeChar

def encode (text : String) : List UInt8 :=
  encodeChars text.toList

/-- A sequence of which some bytes are still missing. -/
structure Unfinished where
  /-- How many bytes are missing after the next one. -/
  more : Nat
  low : Nat
  high : Nat
  bits : Nat
deriving DecidableEq, Repr

inductive Lead where
  | single (c : Char)
  | opening (sequence : Unfinished)
  | malformed

/-- The first byte of a sequence. Overlong forms, surrogates and numbers above U+10FFFF are
excluded by the bounds of the second byte. -/
def lead (b : UInt8) : Lead :=
  let n := b.toNat
  if n < 0x80 then .single (Char.ofNat n)
  else if n < 0xC2 then .malformed
  else if n < 0xE0 then .opening ⟨0, 0x80, 0xBF, n - 0xC0⟩
  else if n < 0xF0 then
    .opening ⟨1, if n == 0xE0 then 0xA0 else 0x80, if n == 0xED then 0x9F else 0xBF, n - 0xE0⟩
  else if n < 0xF5 then
    .opening ⟨2, if n == 0xF0 then 0x90 else 0x80, if n == 0xF4 then 0x8F else 0xBF, n - 0xF0⟩
  else .malformed

/-- The characters of some bytes after an open sequence; `none` stands for a malformed part. -/
def readFrom : Option Unfinished → List UInt8 → List (Option Char)
  | none, [] => []
  | some _, [] => [none]
  | none, b :: rest =>
    match lead b with
    | .single c => some c :: readFrom none rest
    | .opening next => readFrom (some next) rest
    | .malformed => none :: readFrom none rest
  | some sequence, b :: rest =>
    if sequence.low ≤ b.toNat && b.toNat ≤ sequence.high then
      let bits := sequence.bits * 64 + (b.toNat - 0x80)
      match sequence.more with
      | 0 => some (Char.ofNat bits) :: readFrom none rest
      | more + 1 => readFrom (some ⟨more, 0x80, 0xBF, bits⟩) rest
    else
      -- the byte is not the next one of the sequence, but it may start another one
      none ::
        match lead b with
        | .single c => some c :: readFrom none rest
        | .opening next => readFrom (some next) rest
        | .malformed => none :: readFrom none rest

def read (bytes : List UInt8) : List (Option Char) :=
  readFrom none bytes

def decode? (bytes : List UInt8) : Option String :=
  ((read bytes).mapM id).map String.ofList

def decodeLossy (bytes : List UInt8) : String :=
  String.ofList ((read bytes).map fun c => c.getD (Char.ofNat 0xFFFD))

end Cattery.Utf8
