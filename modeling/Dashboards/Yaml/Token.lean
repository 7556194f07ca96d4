/-!
# Tokens of YAML text

What the text is made of once indentation has been turned into brackets: a block collection starts
where its first entry stands further to the right than what surrounds it, and ends where a line
starts further to the left.
-/

namespace Dashboards.Yaml

/-- How a scalar is written. -/
inductive Style where
  | plain
  | singleQuoted
  | doubleQuoted
  | literal
  | folded
deriving DecidableEq, Repr

/-- What is said of a document before it starts. -/
inductive Directive where
  | version (major minor : Nat)
  /-- what tags with a handle start with -/
  | handle (name stem : String)
deriving DecidableEq, Repr

/-- A token. -/
inductive Token where
  | directive (d : Directive)
  | documentStart
  | documentEnd
  | blockSequenceStart
  | blockMappingStart
  | blockEnd
  | flowSequenceStart
  | flowSequenceEnd
  | flowMappingStart
  | flowMappingEnd
  | blockEntry
  | flowEntry
  | key
  | value
  | aliasOf (name : String)
  | anchor (name : String)
  /-- a tag, which without a handle is complete -/
  | tag (handle suffix : String)
  | scalar (text : String) (style : Style)
deriving DecidableEq, Repr

end Dashboards.Yaml
