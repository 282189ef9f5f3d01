import LexicalPath.Command.Help

namespace LexicalPath.Command

inductive Operation where
  | parse
  | normalize
  | resolve
  | resolveSibling
  | relativize
  | dialects
  | version
  deriving DecidableEq

inductive Format where
  | table
  | text
  | json
  | yaml
  deriving DecidableEq

def Format.word : Format → String
  | .table => "table"
  | .text => "text"
  | .json => "json"
  | .yaml => "yaml"

def Format.ofWord? (word : String) : Option Format :=
  [Format.table, .text, .json, .yaml].find? fun f => f.word = word

def programName : String :=
  "pathnames"

def programVersion : String :=
  "0.1.0"

def standardDialect : String :=
  "unix"

namespace CommandOption

/-- A purpose with the value that is taken if none is given. -/
def withStandard (purpose standard : String) : String :=
  purpose ++ "  [default: " ++ standard ++ "]"

def dialect : CommandOption where
  short := some 's'
  long := "--syntax"
  value := some "TEXT"
  purpose := withStandard "Registered path syntax to use" standardDialect

def format (forms : List Format) : CommandOption :=
  let words := forms.map Format.word
  { long := "--format"
    value := some ("[" ++ "|".intercalate words ++ "]")
    choices := words
    purpose := withStandard "Output format" (words.headD "") }

def output : CommandOption where
  short := some 'o'
  long := "--output"
  value := some "TEXT"
  purpose := "Output file path (defaults to stdout)"

def normalize : CommandOption where
  short := some 'n'
  long := "--normalize"
  purpose := "Normalize the result"

def version : CommandOption where
  long := "--version"
  purpose := "Show the version and exit."

def verbose : CommandOption where
  short := some 'v'
  long := "--verbose"
  purpose := "Enable debug logging"

def help : CommandOption where
  long := "--help"
  purpose := "Show this message and exit."

end CommandOption

namespace Operation

def all : List Operation :=
  [normalize, parse, relativize, resolve, resolveSibling, dialects, version]

def name : Operation → String
  | parse => "parse"
  | normalize => "normalize"
  | resolve => "resolve"
  | resolveSibling => "resolve-sibling"
  | relativize => "relativize"
  | dialects => "syntaxes"
  | version => "version"

def ofName? (word : String) : Option Operation :=
  all.find? fun o => o.name = word

def summary : Operation → String
  | parse => "Parse PATH and show its root and name elements."
  | normalize => "Lexically normalize PATH (no filesystem access)."
  | resolve => "Resolve OTHER against BASE."
  | resolveSibling => "Resolve OTHER against the parent of BASE."
  | relativize => "Print the relative path that leads from BASE to OTHER."
  | dialects => "List all registered path syntaxes."
  | version => "Show detailed version information."

def arguments : Operation → List String
  | parse | normalize => ["PATH"]
  | resolve | resolveSibling | relativize => ["BASE", "OTHER"]
  | dialects | version => []

/-- The forms in which an operation shows its result, the standard one first. -/
def formats : Operation → List Format
  | parse => [.table, .json, .yaml]
  | normalize | resolve | resolveSibling | relativize => [.text, .json, .yaml]
  | dialects | version => []

def options (o : Operation) : List CommandOption :=
  (if o.formats.isEmpty then [] else [.dialect, .format o.formats, .output])
    ++ (if o = resolve ∨ o = resolveSibling then [.normalize] else [])
    ++ [.help]

def signature (o : Operation) : Signature where
  path := programName ++ " " ++ o.name
  arguments := o.arguments
  options := o.options
  summary := o.summary

end Operation

def programSignature : Signature where
  path := programName
  arguments := ["COMMAND", "[ARGS]..."]
  options := [.version, .verbose, .help]
  summary := "Syntax-agnostic path parsing, normalization and resolution."
  passesOn := true

def programHelp : String :=
  programSignature.help (Operation.all.map fun o => (o.name, o.summary))

end LexicalPath.Command
