import LexicalPath.Command.Ansi
import LexicalPath.Command.Catalogue
import LexicalPath.Command.Storage
import LexicalPath.Dialect.Normalize
import LexicalPath.Dialect.Resolve
import LexicalPath.Display.Table
import LexicalPath.Document
import LexicalPath.Registry.EntryPoint

/-!
Running the program on a line of words. The outcome tells what is printed, how the program ends, and
which file is written. Nothing is printed or written twice, and an error leaves nothing but its
message.
-/

namespace LexicalPath.Command

/-- An error that the program does not expect and does not turn into a message of its own. -/
inductive Unexpected where
  | registry (e : RegistryError)
  | path (e : PathError)
  | file (e : FileError)
  | markup (e : Markup.Fault)

/-- What the program runs on: what it shows things on, and where it writes files. -/
structure Host where
  storage : Storage
  console : Display.Console := {}

namespace Host

def unlimited : Host :=
  { storage := .unlimited }

def emptyDirectory : Host :=
  { storage := .emptyDirectory }

end Host

structure Outcome where
  exit : Nat := 0
  stdout : String := ""
  stderr : String := ""
  /-- The file that is written, with the text that it holds then. -/
  file : Option (String × String) := none
  unexpected : Option Unexpected := none

namespace Outcome

/-- The program ends with an error that it does not expect. -/
def broken (e : Unexpected) : Outcome :=
  { exit := 1, unexpected := some e }

def misused (sig : Signature) (e : UsageError) : Outcome :=
  { exit := 2, stderr := printed (e.report sig) }

/-- A message is shown, given as markup. -/
def message (host : Host) (exit : Nat) (markup : String) : Outcome :=
  match Markup.render host.console.emoji markup.toList with
  | .error e => broken (.markup e)
  | .ok s => { exit, stderr := String.ofList (host.console.paragraph s) }

def table (t : Except Markup.Fault (List Char)) : Outcome :=
  match t with
  | .error e => broken (.markup e)
  | .ok s => { stdout := String.ofList s }

/-- An outcome with messages in front. -/
def after (messages : String) (o : Outcome) : Outcome :=
  { o with stderr := messages ++ o.stderr }

end Outcome

def escape (s : String) : String :=
  String.ofList (Markup.escape s.toList)

/-- The message for an error of a path, if it is one that the program expects. -/
def pathMessage? (e : PathError) : Option String :=
  match e with
  | .invalidName _ _ | .incompleteNetworkRoot _ _ =>
      some ("[red]Invalid path[/red]: " ++ escape e.message)
  | .rootedRelative _ _ | .incompatibleRoots _ _ => some ("[red]Error:[/red] " ++ escape e.message)
  | .emptySeparator | .decisionFailed _ => none

def pathOutcome (host : Host) (e : PathError) : Outcome :=
  match pathMessage? e with
  | some markup => .message host 1 markup
  | none => .broken (.path e)

/-- The outcome of an error of the registry that the program has no message for. -/
def unhandledOutcome (e : RegistryError) : Outcome :=
  match e with
  | .raised (.exit code) => { exit := code }
  | .raised .interrupt => { exit := 1, stderr := "\nAborted!\n" }
  | e => .broken (.registry e)

/-- The outcome of an error of the registry where an engine is asked for. -/
def registryOutcome (host : Host) (e : RegistryError) : Outcome :=
  match e with
  | .notRegistered name available =>
      .message host 2
        ("[red]Error:[/red] Unknown syntax " ++ escape (Text.quoted name) ++ ". Available: "
          ++ escape (Text.joinedStrings ", " available))
  | e => unhandledOutcome e

/-- A path in a form. -/
def written (d : Dialect) (format : Format) (p : Path) : String :=
  match format with
  | .json => Document.toJson p (some 2)
  | .yaml => String.ofList (Text.trimEnd (· = '\n') (Document.toYaml p).toList)
  | .text | .table => d.print p

/-- Shows a result or writes it to a file. A file without a name stands for the output. -/
def deliver (host : Host) (output : Option String) (text : String) : Outcome :=
  match output with
  | none | some "" => { stdout := printed (text ++ "\n") }
  | some name =>
      match host.storage name (text ++ "\n") with
      | .failed e left =>
          { Outcome.broken (.file e) with file := left.map fun rest => (name, rest) }
      | .stored =>
          { Outcome.message host 0 ("[green]Written to[/green] " ++ escape name) with
            file := some (name, text ++ "\n") }

def pathTable (console : Display.Console) (d : Dialect) (p : Path) (absolute : Bool) :
    Except Markup.Fault (List Char) :=
  let row (label shown : String) := [label.toList, shown.toList]
  Display.plainTable console
    [row "[bold]Root[/bold]" (escape (Text.quotedOption p.root)),
     row "[bold]Names[/bold]" (escape (Text.quotedList p.names)),
     row "[bold]Absolute[/bold]" (if absolute then "yes" else "no"),
     row "[bold]Canonical[/bold]" (escape (d.print p))]

def versionTable (console : Display.Console) : Except Markup.Fault (List Char) :=
  Display.plainTable console
    [["[bold]pathnames[/bold]".toList, ("v" ++ programVersion).toList],
     ["Python".toList, "3.11.0".toList],
     ["Platform".toList, "linux".toList]]

def dialectTable (console : Display.Console) (dialects : List (String × Dialect)) :
    Except Markup.Fault (List Char) :=
  Display.ruledTable console "Registered syntaxes".toList
    ["Name".toList, "Root separator".toList, "Name separator".toList]
    (dialects.map fun (name, d) =>
      [name.toList, (Text.quoted d.rootSeparator).toList, (Text.quoted d.nameSeparator).toList])

def dialectsUnder (r : Registry) : List String → Except RegistryError (List (String × Dialect))
  | [] => .ok []
  | name :: rest =>
      let made := r.create name
      match made.answer with
      | .error e => .error e
      | .ok engine =>
          (dialectsUnder made.registry rest).map fun more => (name, engine.dialect) :: more

/-- The result of an operation on paths. -/
def Operation.apply (o : Operation) (d : Dialect) (first second : Path) : Except PathError Path :=
  match o with
  | .normalize => d.normalize first
  | .resolve => d.resolve first second
  | .resolveSibling => d.resolveSibling first second
  | .relativize => d.relativize first second
  | .parse | .dialects | .version => .ok first

/-- The result of an operation on the texts of paths, with the dialect of an engine. -/
def Operation.result (o : Operation) (d : Dialect) (g : Given) : Except PathError Path := do
  let paths ← g.arguments.mapM d.parse
  let p ← o.apply d (paths.headD Path.empty) (paths.getD 1 Path.empty)
  if g.has "--normalize" then d.normalize p else return p

def Operation.format (o : Operation) (g : Given) : Format :=
  let standard := o.formats.headD .text
  match (g.value? "--format").bind (Signature.choice? (o.formats.map Format.word)) with
  | none => standard
  | some word => (Format.ofWord? word).getD standard

def runOnPaths (host : Host) (r : Registry) (o : Operation) (g : Given) : Outcome :=
  match (r.create ((g.value? "--syntax").getD standardDialect)).answer with
  | .error e => registryOutcome host e
  | .ok engine =>
      let d := engine.dialect
      match o.result d g with
      | .error e => pathOutcome host e
      | .ok p =>
          match o.format g with
          | .table =>
              match d.isAbsolute p with
              | .error e => pathOutcome host e
              | .ok absolute => .table (pathTable host.console d p absolute)
          | format => deliver host (g.value? "--output") (written d format p)

def runOperation (host : Host) (r : Registry) (o : Operation) (g : Given) : Outcome :=
  match o with
  | .version => .table (versionTable host.console)
  | .dialects =>
      match dialectsUnder r r.names with
      | .error e => unhandledOutcome e
      | .ok dialects => .table (dialectTable host.console dialects)
  | _ => runOnPaths host r o g

def call (host : Host) (r : Registry) (o : Operation) (words : List String) : Outcome :=
  let sig := o.signature
  match sig.readWords {} words with
  | .error e => .misused sig e
  | .ok g =>
      if g.has "--help" then { stdout := sig.help [] }
      else
        match sig.check g with
        | .error e => .misused sig e
        | .ok () => runOperation host r o g

/-- The messages among log records: all if everything is shown, otherwise warnings and errors. -/
def logMessages (verbose : Bool) (log : List LogRecord) : String :=
  "".intercalate <|
    (log.filter fun record => verbose || record.level ≠ .debug).map fun record =>
      record.message ++ "\n"

/-- What is shown at once for an option of the program: its help or its version. -/
def shownAtOnce? (g : Given) : Option Outcome :=
  g.options.findSome? fun (o, _) =>
    if o = .help then some { stdout := programHelp }
    else if o = .version then
      some { stdout := programName ++ ", version " ++ programVersion ++ "\n" }
    else none

/-- Whether a word that is the name of no operation is looked at as an option first: one that does
not start with a letter or a digit. -/
def looksLikeOption (word : String) : Bool :=
  word.toList.head?.any fun c => !(c.isAlphanum || 127 < c.toNat)

def unknownOperation (word : String) (words : List String) : Outcome :=
  let similar := Text.similar word (Operation.all.map Operation.name)
  let unknown : Outcome := .misused programSignature (.noSuchCommand word similar)
  if looksLikeOption word then
    match programSignature.readWords {} words with
    | .error e => .misused programSignature e
    | .ok g => (shownAtOnce? g).getD unknown
  else unknown

/-- Loads the entry points of other packages and runs an operation. Nothing is run if loading raises
something. -/
def loadAndCall (host : Host) (entries : List EntryPoint) (verbose : Bool) (o : Operation)
    (words : List String) : Outcome :=
  let loading := Registry.standard.loadEntryPoints EntryPoint.dialectGroup entries
  let outcome :=
    match loading.answer with
    | .error e => unhandledOutcome e
    | .ok () => call host loading.registry o words
  outcome.after (logMessages verbose loading.log)

/-- Runs the program on a line of words, with the entry points of other packages. -/
def run (host : Host) (entries : List EntryPoint) (words : List String) : Outcome :=
  if words.isEmpty then { exit := 2, stderr := programHelp }
  else
    match programSignature.readWords {} words with
    | .error e => .misused programSignature e
    | .ok g =>
        match shownAtOnce? g, g.arguments with
        | some outcome, _ => outcome
        | none, [] => .misused programSignature .missingCommand
        | none, word :: rest =>
            match Operation.ofName? word with
            | none => unknownOperation word (word :: rest)
            | some o => loadAndCall host entries (g.has "--verbose") o rest

end LexicalPath.Command
