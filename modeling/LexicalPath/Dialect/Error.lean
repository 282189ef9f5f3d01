import LexicalPath.Path

namespace LexicalPath

inductive Decision where
  | splitRoot
  | splitNames
  | isValidName
  | isSelf
  | isParent
  | isAbsolute
  deriving DecidableEq

def Decision.label : Decision → String
  | .splitRoot => "split_root_and_rest"
  | .splitNames => "split_names"
  | .isValidName => "is_valid_name"
  | .isSelf => "is_self"
  | .isParent => "is_parent"
  | .isAbsolute => "is_absolute"

inductive PathError where
  /-- `name` is the first name in the text `path` that the grammar does not accept. -/
  | invalidName (path name : String)
  /-- `text` begins like a network root, without a server or without a share. -/
  | incompleteNetworkRoot (path text : String)
  /-- `other` has a root and is not absolute, so that it cannot be resolved against `base`. -/
  | rootedRelative (base other : Path)
  /-- No relative path leads from `base` to `other`, whose roots differ. -/
  | incompatibleRoots (base other : Path)
  /-- A grammar with an empty separator cannot split anything. -/
  | emptySeparator
  /-- A decision of the grammar failed by itself. -/
  | decisionFailed (decision : Decision)
  deriving DecidableEq

namespace PathError

def reason? : PathError → Option String
  | .invalidName _ _ => some "invalid path element"
  | .incompleteNetworkRoot _ _ => some "incomplete UNC root"
  | _ => none

/-- The text of a rejected path and the part of it that was at fault. -/
def rejected? : PathError → Option (String × String)
  | .invalidName path name => some (path, name)
  | .incompleteNetworkRoot path text => some (path, text)
  | _ => none

def message : PathError → String
  | .invalidName path name =>
      Text.quoted path ++ ": invalid path element: " ++ Text.quoted name
  | .incompleteNetworkRoot path text =>
      Text.quoted path ++ ": incomplete UNC root: " ++ Text.quoted text
  | .rootedRelative base other =>
      "Cannot resolve " ++ other.describe ++ " against " ++ base.describe ++ ": it has root "
        ++ Text.quotedOption other.root ++ " but is not absolute."
  | .incompatibleRoots base other =>
      "Cannot relativize " ++ other.describe ++ " against " ++ base.describe ++ ": roots "
        ++ Text.quotedOption base.root ++ " and " ++ Text.quotedOption other.root ++ " differ."
  | .emptySeparator => "empty separator"
  | .decisionFailed decision => decision.label ++ " failed"

/-- Whether the error tells that a path was rejected or that two paths do not fit. All others come
from within a grammar. -/
def isOfPath : PathError → Bool
  | .emptySeparator | .decisionFailed _ => false
  | _ => true

end PathError

end LexicalPath
