import Cattery.Text.Hex

namespace Cattery.Uuid

def fixedBits : BitVec 128 :=
  (0xF : BitVec 128) <<< 76 ||| (0x3 : BitVec 128) <<< 62

def fixedValues : BitVec 128 :=
  (0x4 : BitVec 128) <<< 76 ||| (0x2 : BitVec 128) <<< 62

def ofRandom (number : BitVec 128) : BitVec 128 :=
  (number &&& ~~~fixedBits) ||| fixedValues

def grouped : List Nat → List Char → List String
  | [], _ => []
  | size :: sizes, digits => String.ofList (digits.take size) :: grouped sizes (digits.drop size)

def text (bits : BitVec 128) : String :=
  "-".intercalate (grouped [8, 4, 4, 4, 12] (Hex.digits 32 bits.toNat))

end Cattery.Uuid
