import LexicalPath.Datum
import LexicalPath.Text.Split

namespace LexicalPath.Json

def writeChar (c : Char) : List Char :=
  if c = '"' ∨ c = '\\' then ['\\', c]
  else if c = '\x08' then ['\\', 'b']
  else if c = '\x0c' then ['\\', 'f']
  else if c = '\n' then ['\\', 'n']
  else if c = '\r' then ['\\', 'r']
  else if c = '\t' then ['\\', 't']
  else if c.toNat < 0x20 then '\\' :: 'u' :: Text.hex Text.lowerDigit 4 c.toNat
  else [c]

def writeText (s : String) : List Char :=
  '"' :: s.toList.flatMap writeChar ++ ['"']

/-- The break in front of an element at a depth. A negative indentation counts as none at all. -/
def lineBreak (indent : Option Int) (depth : Nat) : List Char :=
  match indent with
  | none => []
  | some n => '\n' :: List.replicate (n.toNat * depth) ' '

def comma (indent : Option Int) (depth : Nat) : List Char :=
  match indent with
  | none => [',', ' ']
  | some _ => ',' :: lineBreak indent depth

/-- Elements at a depth between an opening and a closing bracket. -/
def enclose (indent : Option Int) (depth : Nat) (opening closing : Char)
    (items : List (List Char)) :
    List Char :=
  if items.isEmpty then [opening, closing]
  else
    opening :: lineBreak indent (depth + 1)
      ++ Text.joined (comma indent (depth + 1)) items
      ++ lineBreak indent depth ++ [closing]

def writeFloat (x : Float) : List Char :=
  if x.isNaN then "NaN".toList
  else if x.isInf then if x < 0.0 then "-Infinity".toList else "Infinity".toList
  else (Datum.floatLayout.renderFloat x).toList

mutual

/-- A value at a depth. Values that JSON has no form for are written as the texts that describe
them. -/
def writeAt (indent : Option Int) (depth : Nat) : Datum → List Char
  | .null => "null".toList
  | .bool true => "true".toList
  | .bool false => "false".toList
  | .int i => (toString i).toList
  | .float x => writeFloat x
  | .text s => writeText s
  | .list items => enclose indent depth '[' ']' (writeItems indent (depth + 1) items)
  | .mapping entries => enclose indent depth '\x7b' '\x7d' (writeEntries indent (depth + 1) entries)
  | other => writeText other.describe

def writeItems (indent : Option Int) (depth : Nat) : List Datum → List (List Char)
  | [] => []
  | item :: rest => writeAt indent depth item :: writeItems indent depth rest

def writeEntries (indent : Option Int) (depth : Nat) : List (Datum × Datum) → List (List Char)
  | [] => []
  | (key, value) :: rest =>
      let name :=
        match key with
        | .text s => s
        | other => other.describe
      (writeText name ++ ':' :: ' ' :: writeAt indent depth value)
        :: writeEntries indent depth rest

end

def write (indent : Option Int) (value : Datum) : String :=
  String.ofList (writeAt indent 0 value)

end LexicalPath.Json
