import FieldUsage.Path

/-!
The languages a file can be written in, told by the extension of its name. GraphQL files are
documents themselves; files of the other languages hold documents inside template literals.
-/

namespace FieldUsage

inductive Language where
  | graphQL
  | typeScript
  | tsx
  | javaScript
deriving DecidableEq, Repr

namespace Language

def ofExtension? (extension : String) : Option Language :=
  if extension ∈ ["graphql", "gql", "graphqls"] then some .graphQL
  else if extension ∈ ["ts", "mts", "cts"] then some .typeScript
  else if extension = "tsx" then some .tsx
  else if extension ∈ ["js", "jsx", "mjs", "cjs"] then some .javaScript
  else none

def ofPath? (path : Path) : Option Language :=
  (Path.extension? path).bind ofExtension?

/-- Whether documents have to be looked for inside files of the language. -/
def requiresExtraction : Language → Bool
  | .graphQL => false
  | _ => true

def isTyped : Language → Bool
  | .typeScript | .tsx => true
  | _ => false

def name : Language → String
  | .graphQL => "GraphQL"
  | .typeScript => "TypeScript"
  | .tsx => "Tsx"
  | .javaScript => "JavaScript"

end Language

end FieldUsage
