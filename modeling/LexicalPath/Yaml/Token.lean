namespace LexicalPath.Yaml

inductive Directive where
  | version (major minor : Nat)
  | handle (name start : String)
  | other
  deriving DecidableEq

/-- A token. Of a scalar it tells whether it is plain, that is, written without quotes. -/
inductive Token where
  | directive (d : Directive)
  | documentStart
  | documentEnd
  | streamEnd
  | blockSequenceStart
  | blockMappingStart
  | blockEnd
  | flowSequenceStart
  | flowSequenceEnd
  | flowMappingStart
  | flowMappingEnd
  | blockEntry
  | flowEntry
  | key
  | value
  | alias (name : String)
  | anchor (name : String)
  | tag (handle : Option String) (suffix : String)
  | scalar (text : String) (plain : Bool)
  deriving DecidableEq

inductive TokenError where
  /-- A key without a colon. -/
  | unfinishedKey
  | misplacedEntry
  | misplacedKey
  | misplacedValue
  | badDirective
  | badName
  | badTag
  | badBlockHeader
  | unfinishedText
  | markWithinText
  | badEscape
  /-- An escape for a code that no character has. -/
  | badCode (code : Nat)
  | badStart (c : Char)
  /-- Brackets within more brackets than are followed. -/
  | tooDeep
  deriving DecidableEq

end LexicalPath.Yaml
