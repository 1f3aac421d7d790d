import FieldUsage.Yaml.Lexer

/-!
The nodes of a document. A reference stands for the node with its anchor, which comes before it, so
that a document is a tree. A text is one document.
-/

namespace FieldUsage.Yaml

inductive Node where
  | scalar (tag : Option String) (plain : Bool) (text : String)
  | sequence (items : List Node)
  | mapping (entries : List (Node × Node))
deriving Repr, Inhabited

/-- The node where nothing is written. -/
def Node.empty : Node := .scalar none true ""

namespace Node

structure State where
  tokens : List Token
  anchors : List (List Char × Node) := []

abbrev Parser := StateT State Option

def peek : Parser (Option Token) := return (← get).tokens.head?

def skip : Parser Unit := modify fun s => { s with tokens := s.tokens.tail }

def eat (token : Token) : Parser Bool := do
  if (← peek) == some token then skip; return true
  else return false

def isNext (tokens : List Token) : Parser Bool := do
  return (← peek).any tokens.contains

/-- The name that a tag stands for. Tags with a handle of their own are not known. -/
def tagName? : List Char → Option String
  | '!' :: '!' :: name => some ("tag:yaml.org,2002:" ++ String.ofList name)
  | '!' :: '<' :: name => some (String.ofList (name.takeWhile (· != '>')))
  | '!' :: name => if name.contains '!' then none else some ("!" ++ String.ofList name)
  | _ => none

/-- The tag and anchor before a node, in either order. -/
def properties : Parser (Option String × Option (List Char)) := do
  let anchor? : Parser (Option (List Char)) := do
    match ← peek with
    | some (.anchor name) => skip; return some name
    | _ => return none
  let tag? : Parser (Option String) := do
    match ← peek with
    | some (.tag text) => skip; return some (← tagName? text)
    | _ => return none
  match ← anchor? with
  | some name => return (← tag?, some name)
  | none =>
      let tag ← tag?
      if tag.isSome then return (tag, ← anchor?) else return (none, none)

def nodeUnless (closing : List Token) (node : Parser Node) : Parser Node := do
  if ← isNext closing then return .empty else node

def blockItems (node : Parser Node) : (bound : Nat) → Parser (List Node)
  | 0 => failure
  | bound + 1 => do
      if ← eat .entry then
        let first ← nodeUnless [.entry, .blockEnd] node
        return first :: (← blockItems node bound)
      else if ← eat .blockEnd then return []
      else failure

/-- The items of a sequence at the indentation of the mapping around it. -/
def looseItems (node : Parser Node) : (bound : Nat) → Parser (List Node)
  | 0 => failure
  | bound + 1 => do
      if ← eat .entry then
        let first ← nodeUnless [.entry, .key, .value, .blockEnd] node
        return first :: (← looseItems node bound)
      else return []

def blockEntries (node : Parser Node) : (bound : Nat) → Parser (List (Node × Node))
  | 0 => failure
  | bound + 1 => do
      if ← eat .blockEnd then return []
      let part := nodeUnless [.key, .value, .blockEnd] node
      let marked ← eat .key
      unless marked || (← isNext [.value]) do failure
      let key ← if marked then part else pure .empty
      let value ← if ← eat .value then part else pure .empty
      return (key, value) :: (← blockEntries node bound)

/-- A key with its value in a flow collection, where `closing` ends the collection. -/
def flowPair (node : Parser Node) (closing : Token) : Parser (Node × Node) := do
  let marked ← eat .key
  let key ←
    if marked then nodeUnless [.value, .comma, closing] node
    else if ← isNext [.value] then pure .empty
    else node
  let value ← if ← eat .value then nodeUnless [.comma, closing] node else pure .empty
  return (key, value)

/-- An item of a flow sequence. A key with its value is a mapping of its own. -/
def flowItem (node : Parser Node) : Parser Node := do
  if ← isNext [.key, .value] then return .mapping [← flowPair node .flowSequenceEnd]
  else node

/-- What stands in a flow collection, with commas between. A comma may stand before the end. -/
def flowItems {α : Type} (item : Parser α) (closing : Token) : (bound : Nat) → Parser (List α)
  | 0 => failure
  | bound + 1 => do
      if ← eat closing then return []
      let first ← item
      if ← eat .comma then return first :: (← flowItems item closing bound)
      else if ← eat closing then return [first]
      else failure

/-- The contents of a node behind its tag. `block` says whether it may be a block collection, and
`loose` whether it may be a sequence that is not indented. -/
def contents (tag : Option String) (block loose : Bool) (node : Bool → Bool → Parser Node)
    (bound : Nat) : Parser (Option Node) := do
  match ← peek with
  | some (.scalar plain text) => skip; return some (.scalar tag plain (String.ofList text))
  | some .flowSequence =>
      skip
      return some (.sequence (← flowItems (flowItem (node false false)) .flowSequenceEnd bound))
  | some .flowMapping =>
      skip
      return some (.mapping
        (← flowItems (flowPair (node false false) .flowMappingEnd) .flowMappingEnd bound))
  | some .blockSequence =>
      unless block do failure
      skip
      return some (.sequence (← blockItems (node true false) bound))
  | some .blockMapping =>
      unless block do failure
      skip
      return some (.mapping (← blockEntries (node true true) bound))
  | some .entry =>
      if loose then return some (.sequence (← looseItems (node true false) bound))
      else return none
  | _ => return none

/-- A node. Every node takes a token, so the first argument bounds how deep they nest. -/
def node : (bound : Nat) → (block loose : Bool) → Parser Node
  | 0, _, _ => failure
  | bound + 1, block, loose => do
      match ← peek with
      | some (.reference name) =>
          skip
          match (← get).anchors.lookup name with
          | some found => return found
          | none => failure
      | _ =>
          let (tag, anchor) ← properties
          let found ← match ← contents tag block loose (node bound) bound with
            | some found => pure found
            | none =>
                if tag.isNone && anchor.isNone then failure
                pure (.scalar tag true "")
          match anchor with
          | some name => modify fun s => { s with anchors := (name, found) :: s.anchors }
          | none => pure ()
          return found

/-- Passes over ends of documents. -/
def skipDocumentEnds : Parser Unit :=
  modify fun s => { s with tokens := s.tokens.dropWhile (· == .documentEnd) }

def document : Parser Node := do
  skipDocumentEnds
  let bound := (← get).tokens.length + 1
  let directives := (← get).tokens.takeWhile (· == .directive)
  modify fun s => { s with tokens := s.tokens.drop directives.length }
  let marked ← eat .documentStart
  if !directives.isEmpty && !marked then failure
  if (← get).tokens.isEmpty && !marked then failure
  let found ←
    if (← get).tokens.isEmpty || (← isNext [.documentEnd]) then pure .empty
    else node bound true false
  skipDocumentEnds
  unless (← get).tokens.isEmpty do failure
  return found

def ofText? (text : List Char) : Option Node := do
  let tokens ← Token.ofText? text
  let (found, _) ← document.run { tokens }
  return found

end Node

end FieldUsage.Yaml
