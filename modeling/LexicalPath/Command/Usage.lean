import LexicalPath.Text.Quoted
import LexicalPath.Text.Similarity

namespace LexicalPath.Command

/-- An option, with what it takes if it takes anything. -/
structure CommandOption where
  short : Option Char := none
  long : String
  /-- The word for the value in the help. -/
  value : Option String := none
  /-- The words that are allowed, if only some are. -/
  choices : List String := []
  /-- What it is for. -/
  purpose : String
  deriving DecidableEq

/-- A command: how it is called, what it takes and what it does. -/
structure Signature where
  /-- The words by which it is called. -/
  path : String
  /-- The words for its arguments, each of which is required. -/
  arguments : List String
  options : List CommandOption
  summary : String
  /-- Whether everything from the first argument on is left to another command. -/
  passesOn : Bool := false

inductive UsageError where
  | noSuchOption (name : String) (similar : List String)
  | needsValue (name : String)
  | takesNoValue (name : String)
  | missingArgument (name : String)
  | extraArguments (words : List String)
  | badChoice (option value : String) (choices : List String)
  | noSuchCommand (name : String) (similar : List String)
  | missingCommand
  deriving DecidableEq

def suggestion : List String → String
  | [] => ""
  | [one] => " Did you mean " ++ Text.quoted one ++ "?"
  | several => " (Did you mean one of: " ++ ", ".intercalate (several.map Text.quoted) ++ "?)"

def UsageError.message : UsageError → String
  | .noSuchOption name similar => "No such option " ++ Text.quoted name ++ "." ++ suggestion similar
  | .needsValue name => "Option " ++ Text.quoted name ++ " requires an argument."
  | .takesNoValue name => "Option " ++ Text.quoted name ++ " does not take a value."
  | .missingArgument name => "Missing argument '" ++ name ++ "'."
  | .extraArguments words =>
      "Got unexpected extra argument" ++ (if words.length = 1 then "" else "s") ++ " ("
        ++ " ".intercalate words ++ ")"
  | .badChoice option value choices =>
      "Invalid value for '" ++ option ++ "': " ++ Text.quoted value ++ " is not one of "
        ++ ", ".intercalate (choices.map Text.quoted) ++ "."
  | .noSuchCommand name similar =>
      "No such command " ++ Text.quoted name ++ "." ++ suggestion similar
  | .missingCommand => "Missing command."

/-- Whether the call is shown in front of the message. It is not where an option ends the line too
early or is given a value that it does not take. -/
def UsageError.showsCall : UsageError → Bool
  | .needsValue _ | .takesNoValue _ => false
  | _ => true

/-- What a line of words gives to a command: options in order, with their values, and arguments. -/
structure Given where
  options : List (CommandOption × String) := []
  arguments : List String := []

namespace Given

def addOptions (g : Given) (options : List (CommandOption × String)) : Given :=
  { g with options := g.options ++ options }

def addArguments (g : Given) (words : List String) : Given :=
  { g with arguments := g.arguments ++ words }

/-- The value of an option. The last one counts. -/
def value? (g : Given) (long : String) : Option String :=
  (g.options.reverse.find? fun given => given.1.long = long).map (·.2)

def has (g : Given) (long : String) : Bool :=
  g.options.any fun given => given.1.long = long

end Given

/-- Options that a word gives, and one that is still to get its value, with the name by which it was
given. -/
structure WordOptions where
  given : List (CommandOption × String) := []
  waiting : Option (String × CommandOption) := none

namespace Signature

/-- The options that letters stand for. One that takes a value takes the letters behind it, if there
are any. -/
def readLetters (sig : Signature) : List Char → Except UsageError WordOptions
  | [] => .ok {}
  | c :: rest =>
      match sig.options.find? fun o => o.short = some c with
      | none => .error (.noSuchOption (String.ofList ['-', c]) [])
      | some o =>
          if o.value.isSome then
            .ok (if rest.isEmpty then { waiting := some (String.ofList ['-', c], o) }
              else { given := [(o, String.ofList rest)] })
          else (readLetters sig rest).map fun more => { more with given := (o, "") :: more.given }

def readWord (sig : Signature) (word : List Char) : Except UsageError WordOptions :=
  let name := String.ofList (word.takeWhile (· != '='))
  let value := (word.dropWhile (· != '=')).tail
  let hasValue := word.contains '='
  match sig.options.find? fun o => o.long = name with
  | some o =>
      if o.value.isSome then
        .ok (if hasValue then { given := [(o, String.ofList value)] }
          else { waiting := some (name, o) })
      else if hasValue then .error (.takesNoValue name)
      else .ok { given := [(o, "")] }
  | none =>
      if "--".toList.isPrefixOf word then
        .error (.noSuchOption name (Text.similar name (sig.options.map (·.long))))
      else sig.readLetters word.tail

def isOptionWord (word : List Char) : Bool :=
  match word with
  | '-' :: _ :: _ => true
  | _ => false

def readWords (sig : Signature) (g : Given) : List String → Except UsageError Given
  | [] => .ok g
  | word :: rest =>
      if word = "--" then .ok (g.addArguments rest)
      else if isOptionWord word.toList then
        match sig.readWord word.toList with
        | .error e => .error e
        | .ok found =>
            match found.waiting, rest with
            | none, rest => readWords sig (g.addOptions found.given) rest
            | some (name, _), [] => .error (.needsValue name)
            | some (_, o), value :: rest =>
                readWords sig (g.addOptions (found.given ++ [(o, value)])) rest
      else if sig.passesOn then .ok (g.addArguments (word :: rest))
      else readWords sig (g.addArguments [word]) rest

/-- A letter in the form in which words are compared: small, and a long s like any other. -/
def foldLetter (c : Char) : Char :=
  if c = 'ſ' then 's' else c.toLower

/-- The choice that a word stands for. Capital letters do not matter. -/
def choice? (choices : List String) (word : String) : Option String :=
  choices.find? fun c => c.toList = word.toList.map foldLetter

/-- The option whose value is none of its choices. -/
def badChoice? (sig : Signature) (g : Given) : Option UsageError :=
  sig.options.findSome? fun o =>
    match g.value? o.long with
    | none => none
    | some word =>
        if o.choices.isEmpty || (choice? o.choices word).isSome then none
        else some (.badChoice o.long word o.choices)

def checkArguments (sig : Signature) (g : Given) : Except UsageError Unit :=
  match sig.arguments.drop g.arguments.length with
  | name :: _ => .error (.missingArgument name)
  | [] =>
      let extra := g.arguments.drop sig.arguments.length
      if extra.isEmpty then .ok () else .error (.extraArguments extra)

/-- Whether what is given fits the command: first the options, then the arguments. -/
def check (sig : Signature) (g : Given) : Except UsageError Unit :=
  match sig.badChoice? g with
  | some e => .error e
  | none => if sig.passesOn then .ok () else sig.checkArguments g

end Signature

end LexicalPath.Command
