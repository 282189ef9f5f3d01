import LexicalPath.Command.Usage

namespace LexicalPath.Command

def Signature.call (sig : Signature) : String :=
  " ".intercalate (["Usage: " ++ sig.path, "[OPTIONS]"] ++ sig.arguments) ++ "\n"

def CommandOption.written (o : CommandOption) : String :=
  (o.short.elim "" fun c => String.ofList ['-', c] ++ ", ") ++ o.long
    ++ (o.value.elim "" fun value => " " ++ value)

/-- Texts in two columns, with two spaces in front of either. -/
def twoColumns (rows : List (String × String)) : String :=
  let width := (rows.map fun row => row.1.length).foldl max 0
  "".intercalate <| rows.map fun (first, second) =>
    "  " ++ first ++ "".pushn ' ' (width - first.length) ++ "  " ++ second ++ "\n"

def Signature.help (sig : Signature) (commands : List (String × String)) : String :=
  sig.call ++ "\n  " ++ sig.summary ++ "\n\nOptions:\n"
    ++ twoColumns (sig.options.map fun o => (o.written, o.purpose))
    ++ if commands.isEmpty then "" else "\nCommands:\n" ++ twoColumns commands

def UsageError.report (e : UsageError) (sig : Signature) : String :=
  (if e.showsCall then sig.call ++ "Try '" ++ sig.path ++ " --help' for help.\n\n" else "")
    ++ "Error: " ++ e.message ++ "\n"

end LexicalPath.Command
