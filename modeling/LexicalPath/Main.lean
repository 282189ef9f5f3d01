import LexicalPath.Command.Run

namespace LexicalPath.Command

def FileError.ofRefusal (e : IO.Error) : FileError :=
  match e with
  | .noFileOrDirectory _ _ _ => .noDirectory
  | e => .refused (toString e)

def Outcome.writeFile (o : Outcome) : IO (Option FileError) := do
  match o.file with
  | none => return none
  | some (name, text) =>
      try
        IO.FS.writeFile name text
        return none
      catch e => return some (FileError.ofRefusal e)

def FileError.message : FileError → String
  | .noDirectory => "No such file or directory"
  | .isDirectory => "Is a directory"
  | .nameTooLong => "File name too long"
  | .holdsNul => "embedded null byte"
  | .refused reason => reason

def Unexpected.message : Unexpected → String
  | .registry e => e.message
  | .path e => e.message
  | .file e => e.message
  | .markup (.unmatched tag) =>
      "closing tag '[" ++ String.ofList tag ++ "]' doesn't match any open tag"
  | .markup (.badParameters parameters) =>
      "error parsing " ++ Text.quoted (String.ofList parameters)
  | .markup (.style _) => "invalid literal for int() with base 10: ''"

/-- Runs the program. If its file cannot be written, the run is one in which no file can. -/
def execute (words : List String) : IO Outcome := do
  let expected := run Host.unlimited [] words
  match ← expected.writeFile with
  | none => return expected
  | some e => return run { storage := fun _ _ => .failed e none } [] words

end LexicalPath.Command

def main (words : List String) : IO UInt32 := do
  let outcome ← LexicalPath.Command.execute words
  IO.print outcome.stdout
  IO.eprint outcome.stderr
  if let some e := outcome.unexpected then
    IO.eprintln e.message
  return outcome.exit.toUInt32
