namespace Cattery.Slug

def isWordChar (c : Char) : Bool :=
  ('a' ≤ c && c ≤ 'z') || ('0' ≤ c && c ≤ '9')

def wordChar? (c : Char) : Option Char :=
  if isWordChar c then some c
  else if 'A' ≤ c && c ≤ 'Z' then some (Char.ofNat (c.toNat + 32))
  else none

/-- The word characters of a name with one hyphen for every run of others between them. `started`
says that a word character stands before, `gap` that others came after it. -/
def wordsFrom (started gap : Bool) : List Char → List Char
  | [] => []
  | c :: rest =>
    match wordChar? c with
    | none => wordsFrom started true rest
    | some c =>
      if started && gap then '-' :: c :: wordsFrom true false rest
      else c :: wordsFrom true false rest

def fallback : String :=
  "cat"

def ofName (name : String) : String :=
  match wordsFrom false false name.toList with
  | [] => fallback
  | slug => String.ofList slug

inductive Fault where
  | empty
  | unexpected (c : Char)
  | edgeHyphen
deriving DecidableEq, Repr

def Fault.reason : Fault → String
  | .empty => "empty"
  | .unexpected c => "unexpected character '" ++ c.toString ++ "'"
  | .edgeHyphen => "leading or trailing hyphen"

def faultOfChars? (slug : List Char) : Option Fault :=
  if slug.isEmpty then some .empty
  else
    match slug.find? fun c => !(isWordChar c || c == '-') with
    | some c => some (.unexpected c)
    | none =>
      if slug.head? == some '-' || slug.getLast? == some '-' then some .edgeHyphen else none

def fault? (slug : String) : Option Fault :=
  faultOfChars? slug.toList

structure Refusal where
  slug : String
  fault : Fault
deriving DecidableEq, Repr

def Refusal.message (refusal : Refusal) : String :=
  "invalid slug '" ++ refusal.slug ++ "': " ++ refusal.fault.reason

def check (slug : String) : Except Refusal String :=
  match fault? slug with
  | none => .ok slug
  | some fault => .error ⟨slug, fault⟩

def modelName (slug : String) : String :=
  "cat:" ++ slug

end Cattery.Slug
