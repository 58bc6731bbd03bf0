import Cattery.Decimal.Double

namespace Cattery

-- Bounds of words are powers of the core library, also where the powers of monoids are known.
local instance corePow : Pow Int Nat := instPowNat

abbrev FitsWord (n : Int) : Prop :=
  -2 ^ (63 : Nat) ≤ n ∧ n < 2 ^ (64 : Nat)

inductive Number where
  | int (value : Int) (fits : FitsWord value)
  | double (value : Double)
deriving DecidableEq, Repr

/-- A JSON value. Objects that were read have their members in ascending order of the keys, and no
key twice; objects that were written have the order they are shown in. -/
inductive Json where
  | null
  | bool (value : Bool)
  | number (value : Number)
  | string (value : String)
  | array (items : List Json)
  | object (members : List (String × Json))
deriving Repr, Inhabited

namespace Json

mutual

def decEq : (a b : Json) → Decidable (a = b)
  | .null, .null => .isTrue rfl
  | .bool a, .bool b =>
    if h : a = b then .isTrue (h ▸ rfl) else .isFalse fun e => h (Json.bool.inj e)
  | .number a, .number b =>
    if h : a = b then .isTrue (h ▸ rfl) else .isFalse fun e => h (Json.number.inj e)
  | .string a, .string b =>
    if h : a = b then .isTrue (h ▸ rfl) else .isFalse fun e => h (Json.string.inj e)
  | .array a, .array b =>
    match decEqItems a b with
    | .isTrue h => .isTrue (h ▸ rfl)
    | .isFalse h => .isFalse fun e => h (Json.array.inj e)
  | .object a, .object b =>
    match decEqMembers a b with
    | .isTrue h => .isTrue (h ▸ rfl)
    | .isFalse h => .isFalse fun e => h (Json.object.inj e)
  | .null, .bool _ | .null, .number _ | .null, .string _ | .null, .array _ | .null, .object _
  | .bool _, .null | .bool _, .number _ | .bool _, .string _ | .bool _, .array _
  | .bool _, .object _
  | .number _, .null | .number _, .bool _ | .number _, .string _ | .number _, .array _
  | .number _, .object _
  | .string _, .null | .string _, .bool _ | .string _, .number _ | .string _, .array _
  | .string _, .object _
  | .array _, .null | .array _, .bool _ | .array _, .number _ | .array _, .string _
  | .array _, .object _
  | .object _, .null | .object _, .bool _ | .object _, .number _ | .object _, .string _
  | .object _, .array _ => .isFalse fun e => nomatch e

def decEqItems : (a b : List Json) → Decidable (a = b)
  | [], [] => .isTrue rfl
  | [], _ :: _ => .isFalse fun e => nomatch e
  | _ :: _, [] => .isFalse fun e => nomatch e
  | x :: xs, y :: ys =>
    match decEq x y, decEqItems xs ys with
    | .isTrue hx, .isTrue hxs => .isTrue (hx ▸ hxs ▸ rfl)
    | .isFalse hx, _ => .isFalse fun e => hx (List.cons.inj e).1
    | _, .isFalse hxs => .isFalse fun e => hxs (List.cons.inj e).2

def decEqMembers : (a b : List (String × Json)) → Decidable (a = b)
  | [], [] => .isTrue rfl
  | [], _ :: _ => .isFalse fun e => nomatch e
  | _ :: _, [] => .isFalse fun e => nomatch e
  | (k, x) :: xs, (l, y) :: ys =>
    if hk : k = l then
      match decEq x y, decEqMembers xs ys with
      | .isTrue hx, .isTrue hxs => .isTrue (hk ▸ hx ▸ hxs ▸ rfl)
      | .isFalse hx, _ => .isFalse fun e => hx (Prod.mk.inj (List.cons.inj e).1).2
      | _, .isFalse hxs => .isFalse fun e => hxs (List.cons.inj e).2
    else .isFalse fun e => hk (Prod.mk.inj (List.cons.inj e).1).1

end

instance : DecidableEq Json := decEq

def get? (key : String) : Json → Option Json
  | .object members => members.lookup key
  | _ => none

def item? (place : Nat) : Json → Option Json
  | .array items => items[place]?
  | _ => none

def string? : Json → Option String
  | .string text => some text
  | _ => none

def array? : Json → Option (List Json)
  | .array items => some items
  | _ => none

def object? : Json → Option (List (String × Json))
  | .object members => some members
  | _ => none

def bool? : Json → Option Bool
  | .bool value => some value
  | _ => none

def text? (key : String) (value : Json) : Option String :=
  (value.get? key).bind string?

def ofUInt64 (n : UInt64) : Json :=
  .number (.int n.toNat ⟨by omega, by have := n.toNat_lt; omega⟩)

def ofUInt32 (n : UInt32) : Json :=
  .number (.int n.toNat ⟨by omega, by have := n.toNat_lt; omega⟩)

def ofOption : Option String → Json
  | none => .null
  | some text => .string text

end Json

end Cattery
