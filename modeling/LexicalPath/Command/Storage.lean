import LexicalPath.Text.Split

namespace LexicalPath.Command

inductive FileError where
  | noDirectory
  | isDirectory
  | nameTooLong
  | holdsNul
  | refused (reason : String)
  deriving DecidableEq

/-- What writing a text to a file comes to. -/
inductive WriteResult where
  | stored
  /-- It fails, and the file holds another text then, if it was touched at all. -/
  | failed (e : FileError) (left : Option String)
  deriving DecidableEq

/-- What writing a text to the file with a name comes to: the name is given first. -/
abbrev Storage :=
  String → String → WriteResult

namespace Storage

def unlimited : Storage :=
  fun _ _ => .stored

/-- The parts of a file name between slashes. Empty parts and single points do not count. -/
def parts (name : String) : List String :=
  ((Text.runs (· = '/') name.toList).map String.ofList).filter (· != ".")

def isRooted (name : String) : Bool :=
  name.toList.head? = some '/'

/-- The number of bytes that a part of a name may have. -/
def longestPart : Nat := 255

/-- The number of bytes that a name may have. -/
def longestName : Nat := 4095

def plainName (name : String) : String :=
  (if isRooted name then "/" else "") ++ "/".intercalate (parts name)

/-- A directory that holds nothing, with only directories that are empty otherwise around it. Of the
parts of a name the first that is not there is looked at. -/
def emptyDirectory : Storage := fun name _ =>
  if name.toList.contains '\x00' then .failed .holdsNul none
  else if longestName < (plainName name).utf8ByteSize then .failed .nameTooLong none
  else
    match (parts name).dropWhile (· = "..") with
    | [] => .failed .isDirectory none
    | part :: rest =>
        if longestPart < part.utf8ByteSize then .failed .nameTooLong none
        else if rest.isEmpty then .stored
        else .failed .noDirectory none

/-- The name under which a file that is written to lies in the directory, if it lies in it. -/
def nameWithin? (name : String) : Option String :=
  match isRooted name, parts name with
  | false, [part] => if part = ".." then none else some part
  | _, _ => none

end Storage

end LexicalPath.Command
