import LexicalPath.Dialect.Basic

namespace LexicalPath.Unix

def isSeparator (c : Char) : Bool :=
  c = '/'

/-- The root of a text and the names behind it, without separators at its ends. -/
def splitRoot (text : String) : Option String × String :=
  match text.toList with
  | '/' :: rest => (some "/", String.ofList (Text.trim isSeparator rest))
  | s => (none, String.ofList (Text.trimEnd isSeparator s))

def splitNames (rest : String) : List String :=
  (Text.runs isSeparator rest.toList).map String.ofList

def isValidName (name : String) : Bool :=
  !name.isEmpty && name.toList.all fun c => c != '/' && c != '\x00'

def isAbsolute (p : Path) : Bool :=
  p.root.isSome

def grammar : Grammar where
  splitRoot text := .ok (splitRoot text)
  splitNames rest := .ok (splitNames rest)
  isValidName name := .ok (isValidName name)
  isSelf name := .ok (name = ".")
  isParent name := .ok (name = "..")
  isAbsolute p := .ok (isAbsolute p)

def dialect : Dialect where
  grammar := grammar
  rootSeparator := ""
  nameSeparator := "/"
  name := "unix"

end LexicalPath.Unix
