/-!
# Tokens of a document

The text of a document is first cut into tokens.  Some stand for characters of the text, others for
what the indentation says: a block opens where a line stands further right, and ends where one
stands further left.  The end of the token list is the end of the text.
-/

namespace YamlIndex.Yaml

/-- How a scalar is written. -/
inductive Style where
  | plain
  | singleQuoted
  | doubleQuoted
  /-- A block of text whose line ends are kept. -/
  | literal
  /-- A block of text whose line ends are folded. -/
  | folded
  deriving DecidableEq, Repr

/-- A text that may hold any octets, since escapes can put them there. -/
abbrev Octets := List UInt8

/-- The octets of ASCII characters. -/
def Octets.ofAscii (s : List Char) : Octets :=
  s.map fun c => c.toNat.toUInt8

/-- A unit of the text of a document. -/
inductive Token where
  | versionDirective (major minor : Nat)
  | tagDirective (handle tagStart : Octets)
  | documentStart
  | documentEnd
  | blockSequenceStart
  | blockMappingStart
  | blockEnd
  | flowSequenceStart
  | flowSequenceEnd
  | flowMappingStart
  | flowMappingEnd
  | blockEntry
  | flowEntry
  | key
  | value
  | alias (name : List Char)
  | anchor (name : List Char)
  | tag (handle suffix : Octets)
  | scalar (style : Style) (text : List Char)
  deriving DecidableEq, Repr

end YamlIndex.Yaml
