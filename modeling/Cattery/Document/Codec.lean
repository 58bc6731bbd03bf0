import Cattery.Document.Basic
import Cattery.Document.Block
import Cattery.Document.Attributes

/-! `encode` writes the global text between router tags and every directive as a block. `decode` reads
any text: blocks that do not carry a directive are passed over, and text without a tag is global
text alone. Values are not escaped, so a quotation mark ends an attribute, and a closing tag its
text, wherever it stands. -/

namespace Cattery.Document

def blockText (directive : Directive) : String :=
  "\n[step index=\"" ++ toString directive.index.toNat ++ "\" model=\"" ++ directive.modelId ++
    "\"]\n" ++ directive.instructions ++ "\n[/step]\n"

/-- The text of a document. Without a directive that can be written it is the global text
alone. -/
def encode (document : Document) : String :=
  let globalText := Text.trim document.globalText
  match Directive.sanitize document.steps with
  | [] => globalText
  | steps =>
    Text.trim ("[router]\n" ++ globalText ++ "\n[/router]\n" ++
      String.join (steps.map blockText))

def isTagged (text : List Char) : Bool :=
  occurs Tag.routerOpen text || occurs Tag.stepOpen text

def router? (text : List Char) : Option (List Char) := do
  let (_, rest) ← cut? Tag.routerOpen text
  let (inner, _) ← cut? Tag.routerClose rest
  some inner

/-- The directive a block carries: it needs an index above zero, a model and a body. -/
def directive? (block : Block) : Option Directive := do
  let index ← (Attributes.value? "index" block.attributes).bind Attributes.index?
  let modelId := Chars.lowercase (Chars.trim (← Attributes.value? "model" block.attributes))
  let body := Chars.trim block.body
  if modelId.isEmpty || body.isEmpty then none
  else some ⟨index, String.ofList modelId, String.ofList body⟩

def decodeChars (text : List Char) : Document :=
  if isTagged text then
    let segments := Segment.scan text
    let globalText := (router? text).getD (segments.flatMap Segment.outside)
    let directives := (segments.filterMap Segment.block?).filterMap directive?
    { globalText := String.ofList (Chars.trim globalText), steps := Directive.sort directives }
  else plain (String.ofList (Chars.trim text))

def decode (text : String) : Document :=
  decodeChars text.toList

end Cattery.Document
