/-!
# Tokens of a YAML text

A YAML text is a sequence of tokens. Indentation and simple keys, which
have no signs of their own, show as tokens as well: a block collection has
a beginning and an end, and a key is announced before its first token.
-/

namespace ProductCatalog.Yaml

/-- A token. -/
inductive Token
  | streamEnd
  /-- A line about the document that follows. -/
  | directive
  /-- A line that gives a tag handle a meaning. -/
  | tagDirective (handle meaning : List Char)
  | documentStart
  | documentEnd
  | blockSequenceStart
  | blockMappingStart
  | blockEnd
  | flowSequenceStart
  | flowSequenceEnd
  | flowMappingStart
  | flowMappingEnd
  | blockEntry
  | flowEntry
  | key
  | value
  | alias (name : List Char)
  | anchor (name : List Char)
  | tag (handle suffix : List Char)
  | scalar (plain : Bool) (text : List Char)
deriving Repr, DecidableEq, Inhabited

end ProductCatalog.Yaml
