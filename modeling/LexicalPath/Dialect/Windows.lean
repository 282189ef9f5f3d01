import LexicalPath.Dialect.Basic

/-!
The Windows dialect. Both `\` and `/` are read as separators, and `\` is written. There are four
kinds of root: a drive with a separator (`C:\`) and a network share (`\\server\share\`), which make
a path absolute, and a drive alone (`C:`) and a separator alone (`\`), which do not. Drive letters
are read as capitals.
-/

namespace LexicalPath.Windows

/-- The separator that is written. -/
def separator : Char :=
  '\\'

/-- Whether a character separates names in a text with one kind of separator. -/
def isSeparator (c : Char) : Bool :=
  c = separator

/-- A text with the one kind of separator. -/
def unified (s : List Char) : List Char :=
  s.map fun c => if c = '/' then separator else c

def isReserved (c : Char) : Bool :=
  "<>:\"/\\|?*".toList.contains c || c.toNat < 32

/-- The root of a text and the rest behind it, for the text behind two separators: a server, a share
and what follows. There is no root without a server or without a share. -/
def splitShare? (s : List Char) : Option (List Char × List Char) :=
  let server := s.takeWhile (! isSeparator ·)
  let behind := (s.dropWhile (! isSeparator ·)).drop 1
  let share := behind.takeWhile (! isSeparator ·)
  let rest := behind.dropWhile (! isSeparator ·)
  if server.isEmpty || share.isEmpty then none
  else some (separator :: separator :: server ++ separator :: share ++ [separator], rest)

/-- The root of a text, in which all separators are of one kind, and the names behind it, without
separators at its ends. -/
def splitUnified? : List Char → Option (Option (List Char) × List Char)
  | '\\' :: '\\' :: s =>
      (splitShare? s).map fun (root, rest) => (some root, Text.trim isSeparator rest)
  | '\\' :: s => some (some [separator], Text.trim isSeparator s)
  | letter :: ':' :: s =>
      if letter.isAlpha then
        match s with
        | '\\' :: rest => some (some [letter.toUpper, ':', separator], Text.trim isSeparator rest)
        | rest => some (some [letter.toUpper, ':'], Text.trimEnd isSeparator rest)
      else some (none, Text.trimEnd isSeparator (letter :: ':' :: s))
  | s => some (none, Text.trimEnd isSeparator s)

def splitRoot (text : String) : Except PathError (Option String × String) :=
  let s := unified text.toList
  match splitUnified? s with
  | none => .error (.incompleteNetworkRoot text (String.ofList s))
  | some (root, rest) => .ok (root.map String.ofList, String.ofList rest)

def splitNames (rest : String) : List String :=
  (Text.runs isSeparator rest.toList).map String.ofList

/-- Whether a text is a name: a self or parent name, or one without reserved characters that ends in
neither a space nor a dot. -/
def isValidName (name : String) : Bool :=
  name = "." || name = ".." ||
    match name.toList.getLast? with
    | none => false
    | some last => last != ' ' && last != '.' && name.toList.all (! isReserved ·)

/-- A Windows path is absolute when its root ends in a separator and is more than a separator. -/
def isAbsolute (p : Path) : Bool :=
  match p.root with
  | none => false
  | some root => root != "\\" && root.toList.getLast? = some separator

def grammar : Grammar where
  splitRoot text := splitRoot text
  splitNames rest := .ok (splitNames rest)
  isValidName name := .ok (isValidName name)
  isSelf name := .ok (name = ".")
  isParent name := .ok (name = "..")
  isAbsolute p := .ok (isAbsolute p)

def dialect : Dialect where
  grammar := grammar
  rootSeparator := ""
  nameSeparator := "\\"
  name := "windows"

end LexicalPath.Windows
