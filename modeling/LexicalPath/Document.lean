import LexicalPath.Json.Reader
import LexicalPath.Json.Writer
import LexicalPath.Path
import LexicalPath.Yaml.Reader
import LexicalPath.Yaml.Writer

/-!
Paths as documents: a mapping with a kind, the root and the names. A document may leave out what a
path can do without, and may hold other keys beside.
-/

namespace LexicalPath.Document

def pathKind : String :=
  "PathValue"

/-- The document of a path. -/
def ofPath (p : Path) : Datum :=
  .mapping
    [(.text "kind", .text pathKind),
     (.text "root", p.root.elim .null .text),
     (.text "names", .list (p.names.map .text))]

/-- The causes for which a document is not the document of a path. -/
inductive ShapeError where
  | notMapping (kindName : String)
  | wrongKind (value : Datum)
  | wrongRoot (value : Datum)
  | wrongNames (value : Datum)

/-- The message that shows a value, unless that holds a whole number that is too long to be
shown. -/
def showing (prose : String) (value : Datum) : String :=
  match value.shown with
  | .ok shown => prose ++ shown
  | .error text => text

def ShapeError.message : ShapeError → String
  | .notMapping kindName => "'" ++ kindName ++ "' object has no attribute 'get'"
  | .wrongKind value => showing ("Expected kind " ++ Text.quoted pathKind ++ ", got ") value
  | .wrongRoot value => showing "root must be a string or null, got " value
  | .wrongNames value => showing "names must be a list of strings, got " value

def texts? : List Datum → Option (List String)
  | [] => some []
  | .text s :: rest => (texts? rest).map (s :: ·)
  | _ :: _ => none

abbrev Fields :=
  String → Option Datum

/-- Whether the kind of a document is that of a path. It is if nothing is said about it. -/
def checkKind (fields : Fields) : Except ShapeError Unit :=
  match fields "kind" with
  | none => .ok ()
  | some (.text s) => if s = pathKind then .ok () else .error (.wrongKind (.text s))
  | some other => .error (.wrongKind other)

def rootOf (fields : Fields) : Except ShapeError (Option String) :=
  match fields "root" with
  | none | some .null => .ok none
  | some (.text s) => .ok (some s)
  | some other => .error (.wrongRoot other)

/-- The names that a document gives. Whatever counts as nothing stands for no names. -/
def namesOf (fields : Fields) : Except ShapeError (List String) :=
  match fields "names" with
  | none => .ok []
  | some value =>
      if value.isBlank then .ok []
      else
        match value with
        | .list items =>
            match texts? items with
            | some names => .ok names
            | none => .error (.wrongNames value)
        | _ => .error (.wrongNames value)

/-- The path that the values of a document give: first its kind is looked at, then the root, and
then the names. -/
def ofFields (fields : Fields) : Except ShapeError Path :=
  match checkKind fields with
  | .error e => .error e
  | .ok () =>
      match rootOf fields with
      | .error e => .error e
      | .ok root => (namesOf fields).map fun names => { root, names }

def toPath (d : Datum) : Except ShapeError Path :=
  match d with
  | .mapping entries => ofFields (Datum.lookup? · entries)
  | other => .error (.notMapping other.kindName)

inductive JsonError where
  | read (e : Json.ReadError)
  | shape (e : ShapeError)

def JsonError.message : JsonError → String
  | .read e => e.message
  | .shape e => e.message

def toJson (p : Path) (indent : Option Int) : String :=
  Json.write indent (ofPath p)

def ofJson (text : String) : Except JsonError Path :=
  match Json.read text with
  | .error e => .error (.read e)
  | .ok d => (toPath d).mapError .shape

def toYaml (p : Path) : String :=
  Yaml.writeFields
    [("kind", .text pathKind), ("root", p.root.elim .null .text), ("names", .texts p.names)]

inductive YamlError where
  | read (e : Yaml.ReadError)
  | shape (e : ShapeError)

def ofYaml (text : String) : Except YamlError Path :=
  match Yaml.read text with
  | .error e => .error (.read e)
  | .ok d =>
      match d.fields? with
      | some fields => (ofFields fields).mapError .shape
      | none => .error (.shape (.notMapping d.kindName))

end LexicalPath.Document
