/-!
# Tokens of a document

Indentation shows as tokens of its own: the start of a block collection, and its end.
-/

namespace Sentential.Yaml

/-- A token of a document. -/
inductive Token where
  /-- The mark in front of a document. -/
  | documentStart
  /-- The mark behind a document. -/
  | documentEnd
  /-- The indentation of a list begins. -/
  | blockListStart
  /-- The indentation of a mapping begins. -/
  | blockMappingStart
  /-- The indentation of a list or mapping ends. -/
  | blockEnd
  | flowListStart
  | flowListEnd
  | flowMappingStart
  | flowMappingEnd
  /-- The dash of a list item. -/
  | item
  /-- The comma in a flow collection. -/
  | comma
  | key
  | value
  /-- A scalar; quoted scalars are not plain. -/
  | scalar (plain : Bool) (text : List Char)
  deriving DecidableEq, Repr

end Sentential.Yaml
