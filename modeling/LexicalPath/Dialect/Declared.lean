import LexicalPath.Dialect.Basic

/-!
Dialects that are declared by a few tokens: a separator, a mark behind the root, the names that
stand for a place itself and for the place above, and which roots make a path absolute.
-/

namespace LexicalPath

inductive AbsoluteRule where
  /-- Those with a root. -/
  | rooted
  | never
  /-- Those with one of the given roots. -/
  | roots (marks : List String)

/-- The tokens that declare a dialect. -/
structure Declaration where
  /-- Stands between names when a text is read. -/
  separator : String
  /-- The first occurrence of this mark ends the root. -/
  rootMark : Option String := none
  /-- Whether empty names are kept. -/
  keepsEmpty : Bool := false
  /-- The characters that no name may hold. -/
  invalid : String := ""
  selfNames : List String := ["."]
  parentNames : List String := [".."]
  absolute : AbsoluteRule := .rooted
  /-- The name that is written for one level up. -/
  parentName : String := ".."
  rootSeparator : String := ""
  nameSeparator : String := separator
  name : String := "custom"
  /-- A decision that fails whenever it is asked for. -/
  failing : Option Decision := none

namespace Declaration

def decide (decl : Declaration) (decision : Decision) {α : Type} (answer : Except PathError α) :
    Except PathError α :=
  if decl.failing = some decision then .error (.decisionFailed decision) else answer

/-- The text before the root mark and the text behind it, where the mark occurs. -/
def splitRoot (decl : Declaration) (text : String) : Option String × String :=
  let isSeparator c := decl.separator.toList.contains c
  match decl.rootMark.bind fun mark => Text.cutAt? mark.toList text.toList with
  | some (root, rest) => (some (String.ofList root), String.ofList (Text.trim isSeparator rest))
  | none => (none, String.ofList (Text.trim isSeparator text.toList))

def splitNames (decl : Declaration) (rest : String) : Except PathError (List String) :=
  if decl.separator.isEmpty then .error .emptySeparator
  else
    let names := (Text.piecesBetween decl.separator.toList rest.toList).map String.ofList
    .ok (if decl.keepsEmpty then names else names.filter (! ·.isEmpty))

def isValidName (decl : Declaration) (name : String) : Bool :=
  name.toList.all fun c => !decl.invalid.toList.contains c

def isAbsolute (decl : Declaration) (p : Path) : Bool :=
  match decl.absolute, p.root with
  | .never, _ => false
  | _, none => false
  | .rooted, some _ => true
  | .roots marks, some root => marks.contains root

def dialect (decl : Declaration) : Dialect where
  grammar :=
    { splitRoot := fun text => decl.decide .splitRoot (.ok (decl.splitRoot text))
      splitNames := fun rest => decl.decide .splitNames (decl.splitNames rest)
      isValidName := fun name => decl.decide .isValidName (.ok (decl.isValidName name))
      isSelf := fun name => decl.decide .isSelf (.ok (decl.selfNames.contains name))
      isParent := fun name => decl.decide .isParent (.ok (decl.parentNames.contains name))
      isAbsolute := fun p => decl.decide .isAbsolute (.ok (decl.isAbsolute p))
      parentName := decl.parentName }
  rootSeparator := decl.rootSeparator
  nameSeparator := decl.nameSeparator
  name := decl.name

end Declaration

end LexicalPath
