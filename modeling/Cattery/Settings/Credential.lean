import Cattery.Text.Blank
import Cattery.Text.Quoted

namespace Cattery

structure Credential where
  value : String
  origin : Option String
deriving DecidableEq, Repr

namespace Credential

def given (value : String) : Credential :=
  ⟨value, none⟩

def ofVariable? (var : String) (value : Option String) : Option Credential :=
  (value.bind Text.nonBlank?).map fun secret => ⟨secret, some var⟩

structure Missing where
  var : String
deriving DecidableEq, Repr

def Missing.message (missing : Missing) : String :=
  "missing credential: set " ++ missing.var

def require (var : String) (value : Option String) : Except Missing Credential :=
  match ofVariable? var value with
  | some credential => .ok credential
  | none => .error ⟨var⟩

def isEmpty (credential : Credential) : Bool :=
  credential.value.isEmpty

def shownBool (b : Bool) : String :=
  if b then "true" else "false"

def shown (credential : Credential) : String :=
  "Credential \x7b source: " ++ Text.quotedOption credential.origin ++ ", set: " ++
    shownBool (!credential.isEmpty) ++ ", .. \x7d"

end Credential

end Cattery
