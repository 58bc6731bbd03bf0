import Cattery.Cat.Slug
import Cattery.Step.Format

namespace Cattery

structure Cat where
  name : String
  description : String
  slug : Option String
  steps : List Step
deriving DecidableEq, Repr

namespace Cat

def resolvedSlug (cat : Cat) : Except Slug.Refusal String :=
  match cat.slug.bind Text.nonBlank? with
  | some given => Slug.check given
  | none => .ok (Slug.ofName cat.name)

def modelName (cat : Cat) : Except Slug.Refusal String :=
  cat.resolvedSlug.map Slug.modelName

def toJson (cat : Cat) : Json :=
  .object ([("name", .string cat.name), ("description", .string cat.description)] ++
    Step.optionalMember "slug" cat.slug ++ [("steps", .array (cat.steps.map Step.toJson))])

def ofJson? (value : Json) : Option Cat := do
  match ← Source.record? [["name"], ["description"], ["slug"], ["steps"]] value with
  | [name, description, slug, steps] =>
    some {
      name := ← Source.required? Source.text? name
      description := ← Source.defaulted? Source.text? "" description
      slug := ← Source.defaulted? (Source.nullable? Source.text?) none slug
      steps := ← Source.defaulted? (Source.list? Step.ofJson?) [] steps }
  | _ => none

end Cat

end Cattery
