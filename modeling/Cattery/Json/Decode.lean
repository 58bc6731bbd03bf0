import Cattery.Json.Meaning

/-! Records are read from values and, for settings, straight from JSON text, where a member that the
record does not know need not have a value at all. `Source` is what the two have in common.

A record is an object with its fields as members, or an array with its fields in order. -/

namespace Cattery

inductive Shape (α : Type) where
  | null
  | bool (value : Bool)
  | int (value : Int)
  | string (text : String)
  | array (items : List α)
  | object (members : List (String × α))
  | other
deriving Repr

class Source (α : Type) where
  shape : α → Shape α

def Json.shape : Json → Shape Json
  | .null => .null
  | .bool value => .bool value
  | .number (.int value _) => .int value
  | .number (.double _) => .other
  | .string text => .string text
  | .array items => .array items
  | .object members => .object members

def Tree.shape : Tree → Shape Tree
  | .null => .null
  | .bool value => .bool value
  | .numeral value =>
    match value.int? with
    | some n => .int n
    | none => .other
  | .string marks =>
    match Mark.text? marks with
    | some text => .string text
    | none => .other
  | .array items => .array items
  | .object members =>
    match members.mapM fun (key, item) => (Mark.text? key).map fun key => (key, item) with
    | some members => .object members
    | none => .other

instance : Source Json := ⟨Json.shape⟩

instance : Source Tree := ⟨Tree.shape⟩

namespace Source

variable {α β : Type} [Source α]

def text? (value : α) : Option String :=
  match shape value with
  | .string text => some text
  | _ => none

def bool? (value : α) : Option Bool :=
  match shape value with
  | .bool value => some value
  | _ => none

def natBelow? (limit : Nat) (value : α) : Option Nat :=
  match shape value with
  | .int (.ofNat n) => if n < limit then some n else none
  | _ => none

def uint32? (value : α) : Option UInt32 :=
  (natBelow? UInt32.size value).map UInt32.ofNat

def uint64? (value : α) : Option UInt64 :=
  (natBelow? UInt64.size value).map UInt64.ofNat

def nullable? (read? : α → Option β) (value : α) : Option (Option β) :=
  match shape value with
  | .null => some none
  | _ => (read? value).map some

def list? (read? : α → Option β) (value : α) : Option (List β) :=
  match shape value with
  | .array items => items.mapM read?
  | _ => none

def memberNamed? (names : List String) (members : List (String × α)) : Option (Option α) :=
  match members.filter fun (key, _) => names.contains key with
  | [] => some none
  | [(_, value)] => some (some value)
  | _ => none

/-- The fields of a record, each given by the names it may have. A field under two of its names is
a mistake, and so are more elements than fields. -/
def record? (fields : List (List String)) (value : α) : Option (List (Option α)) :=
  match shape value with
  | .object members => fields.mapM fun names => memberNamed? names members
  | .array items =>
    if items.length ≤ fields.length then
      some (items.map some ++ List.replicate (fields.length - items.length) none)
    else none
  | _ => none

def required? (read? : α → Option β) (field : Option α) : Option β :=
  field.bind read?

def defaulted? (read? : α → Option β) (default : β) : Option α → Option β
  | none => some default
  | some value => read? value

/-- The name of a choice: a text, or an object with that one member and nothing in it. -/
def choiceName? (value : α) : Option String :=
  match shape value with
  | .string name => some name
  | .object [(name, inner)] =>
    match shape inner with
    | .null => some name
    | _ => none
  | _ => none

end Source

end Cattery
