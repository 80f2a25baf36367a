-- SUMMARY: The tokens of a YAML text.
/-!
# Tokens

The indicators of the format, the starts and ends of blocks that indentation implies, and the scalars with their
text. A scalar is plain if it is written without quotes and not as a block.
-/

namespace TestDiscovery.Yaml

inductive Directive where
  | version (major : Nat)
  | tagHandle (handle start : String)
  | other
deriving DecidableEq, Repr

inductive Token where
  | streamEnd
  | directive (d : Directive)
  | documentStart
  | documentEnd
  | blockSequenceStart
  | blockMappingStart
  | blockEnd
  | flowSequenceStart
  | flowSequenceEnd
  | flowMappingStart
  | flowMappingEnd
  | blockEntry
  | flowEntry
  | key
  | value
  | reference (name : String)
  | anchor (name : String)
  /-- A tag is a handle and the text after it, or a tag in full. -/
  | tag (handle : Option String) (text : String)
  | scalar (text : String) (plain : Bool)
deriving DecidableEq, Repr

end TestDiscovery.Yaml
