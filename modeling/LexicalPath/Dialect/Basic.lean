import LexicalPath.Dialect.Error
import LexicalPath.Text.Split

/-!
Dialects: the ways in which paths are written. A dialect is a grammar, which takes texts apart and
judges names, together with the separators that are written between the parts. Reading a text never
simplifies the path, and printing a path cannot fail.
-/

namespace LexicalPath

/-- The decisions in which the ways of writing paths differ. Each may fail; its failure then is the
failure of the operation that asked for it. -/
structure Grammar where
  /-- The root of a text, if it has one, and the rest of it, which holds names only. -/
  splitRoot : String → Except PathError (Option String × String)
  /-- The names in such a rest, in order. -/
  splitNames : String → Except PathError (List String)
  isValidName : String → Except PathError Bool
  /-- Whether a name stands for the place itself. -/
  isSelf : String → Except PathError Bool
  /-- Whether a name stands for the place one level up. -/
  isParent : String → Except PathError Bool
  /-- Whether a path does not depend on where it is used. A path with a root still may. -/
  isAbsolute : Path → Except PathError Bool
  /-- The name that is written for one level up. -/
  parentName : String := ".."

structure Dialect where
  grammar : Grammar
  /-- Stands between the root and the first name. -/
  rootSeparator : String
  /-- Stands between two names. -/
  nameSeparator : String
  name : String := "custom"

namespace Dialect

/-- Fails at the first name that the grammar does not accept. -/
def checkNames (d : Dialect) (text : String) : List String → Except PathError Unit
  | [] => .ok ()
  | name :: rest =>
      match d.grammar.isValidName name with
      | .ok true => d.checkNames text rest
      | .ok false => .error (.invalidName text name)
      | .error e => .error e

def parse (d : Dialect) (text : String) : Except PathError Path :=
  match d.grammar.splitRoot text with
  | .error e => .error e
  | .ok (root, rest) =>
      match d.grammar.splitNames rest with
      | .error e => .error e
      | .ok names =>
          match d.checkNames text names with
          | .error e => .error e
          | .ok () => .ok { root, names }

/-- The text of a path: its root, the root separator where names follow, and the names with the name
separator between them. -/
def print (d : Dialect) (p : Path) : String :=
  match p.root, p.names with
  | none, names => Text.joinedStrings d.nameSeparator names
  | some root, [] => root
  | some root, names => root ++ d.rootSeparator ++ Text.joinedStrings d.nameSeparator names

def isAbsolute (d : Dialect) (p : Path) : Except PathError Bool :=
  d.grammar.isAbsolute p

def describe (d : Dialect) : String :=
  "PathEngine(name=" ++ Text.quoted d.name ++ ", root_separator=" ++ Text.quoted d.rootSeparator
    ++ ", name_separator=" ++ Text.quoted d.nameSeparator ++ ")"

end Dialect

end LexicalPath
