import LexicalPath.Datum
import LexicalPath.Dialect.Unix
import LexicalPath.Dialect.Windows

/-!
A registry of dialects by name. Under each name stands a factory, which builds an engine on demand.
An engine is built when it is first asked for and is shared from then on, until its name is taken
out. A call that fails changes nothing but the number of factory calls.
-/

namespace LexicalPath

/-- What tells one engine from another that behaves alike. -/
inductive EngineId where
  /-- Built by the factory call with this number. -/
  | built (call : Nat)
  /-- Made outside of a registry. -/
  | standalone (index : Nat)
  deriving DecidableEq

structure Engine where
  id : EngineId
  dialect : Dialect

/-- What code from outside of the registry raises. -/
inductive Raised where
  /-- An error that tells of a value of the wrong type. -/
  | wrongType (text : String)
  | failure (text : String)
  /-- The program is to end with a code. -/
  | exit (code : Nat)
  /-- The program is interrupted. -/
  | interrupt
  deriving DecidableEq

namespace Raised

def message : Raised → String
  | wrongType text | failure text => text
  | exit code => toString code
  | interrupt => ""

/-- Whether what was raised is an error, and not meant to end the program. -/
def isError : Raised → Bool
  | wrongType _ | failure _ => true
  | exit _ | interrupt => false

end Raised

/-- The text that shows an object from outside, unless finding it out raises something. -/
abbrev ShownText :=
  Except Raised String

def ShownText.ofDatum (d : Datum) : ShownText :=
  d.shown.mapError .failure

/-- What calling a factory comes to. -/
inductive Outcome where
  /-- A dialect, for which an engine is built. -/
  | dialect (d : Dialect)
  /-- An engine from before the call. -/
  | engine (e : Engine)
  /-- An object that is no engine. -/
  | other (shown : ShownText)
  | failure (e : Raised)

/-- A factory of engines. Its answer may depend on how many calls there were before. -/
structure Factory where
  /-- What tells one factory from another that behaves alike. -/
  id : Nat
  /-- The text that shows the factory, which is found out once the factory is registered. -/
  label : ShownText
  call : Nat → Outcome

inductive Offer where
  | factory (f : Factory)
  /-- An object that cannot be called. -/
  | value (shown : ShownText)

/-- The text that shows an offer where it is registered or turned down. -/
def Offer.shown : Offer → ShownText
  | factory f => f.label
  | value shown => shown

inductive RegistryError where
  | notRegistered (name : String) (available : List String)
  | alreadyRegistered (name : String)
  | notCallable (name shown : String)
  | notEngine (name shown : String)
  /-- Code from outside raised this, and it is passed on. -/
  | raised (e : Raised)
  /-- The engine could not read a text. -/
  | path (e : PathError)

namespace RegistryError

/-- The error that is told of by showing an object, unless that raises something. -/
def showing (shown : ShownText) (told : String → RegistryError) : RegistryError :=
  match shown with
  | .ok text => told text
  | .error e => raised e

/-- Whether an error is one that a failing import may end with. -/
def isError : RegistryError → Bool
  | raised e => e.isError
  | _ => true

/-- Whether an error tells that an offer does not fit: its name is taken, or something is of the
wrong type. -/
def isUnfit : RegistryError → Bool
  | alreadyRegistered _ | notCallable _ _ | notEngine _ _ | raised (.wrongType _) => true
  | _ => false

def message : RegistryError → String
  | notRegistered name available =>
      let listed := Text.joinedStrings ", " available
      Text.quoted
        ("Syntax " ++ Text.quoted name ++ " is not registered. Available syntaxes: "
          ++ (if listed.isEmpty then "(none)" else listed)
          ++ ". Check that the package is installed and its entry-points are declared.")
  | alreadyRegistered name =>
      "Syntax " ++ Text.quoted name ++ " is already registered. "
        ++ "Use a unique name or explicitly deregister the existing entry first."
  | notCallable name shown =>
      "Cannot register " ++ shown ++ " under " ++ Text.quoted name ++ ": it must be callable."
  | notEngine name shown =>
      "Factory for syntax " ++ Text.quoted name ++ " returned " ++ shown ++ ", not a PathEngine."
  | raised e => e.message
  | path e => e.message

end RegistryError

/-- The engine that the call with a number makes for a name, if that is what it comes to. -/
def Outcome.made (name : String) (call : Nat) : Outcome → Except RegistryError Engine
  | .dialect d => .ok ⟨.built call, d⟩
  | .engine e => .ok e
  | .other shown => .error (.showing shown (.notEngine name))
  | .failure e => .error (.raised e)

inductive LogLevel where
  | debug
  | warning
  | error
  deriving DecidableEq

def LogLevel.label : LogLevel → String
  | .debug => "DEBUG"
  | .warning => "WARNING"
  | .error => "ERROR"

inductive LogRecord where
  | registered (name label : String)
  | deregistered (name : String)
  | built (name : String) (dialect : Dialect)
  | rejected (dialect path name : String)
  | entryPointKnown (name : String)
  | entryPointFailed (name group : String)
  | entryPointUnfit (name : String)

namespace LogRecord

def level : LogRecord → LogLevel
  | entryPointFailed _ _ => .error
  | entryPointUnfit _ => .warning
  | _ => .debug

def message : LogRecord → String
  | registered name label => "Registered syntax " ++ Text.quoted name ++ " -> " ++ label
  | deregistered name => "Deregistered syntax " ++ Text.quoted name
  | built name dialect =>
      "Built engine for syntax " ++ Text.quoted name ++ ": " ++ dialect.describe
  | rejected dialect path name =>
      "Rejected name " ++ Text.quoted name ++ " in " ++ Text.quoted path ++ " (" ++ dialect
        ++ " syntax)"
  | entryPointKnown name =>
      "Entry-point " ++ Text.quoted name ++ " already registered; skipping."
  | entryPointFailed name group =>
      "Failed to load entry-point " ++ Text.quoted name ++ " from group " ++ Text.quoted group
        ++ "; skipping."
  | entryPointUnfit name =>
      "Entry-point " ++ Text.quoted name ++ " loaded but could not be registered; skipping."

end LogRecord

def assoc? {α : Type} (key : String) : List (String × α) → Option α
  | [] => none
  | (k, v) :: rest => if k = key then some v else assoc? key rest

def dropKey {α : Type} (key : String) (entries : List (String × α)) : List (String × α) :=
  entries.filter fun entry => entry.1 != key

/-- The factories by name, the engines that were built and are shared, and the number of factory
calls. -/
structure Registry where
  factories : List (String × Factory) := []
  engines : List (String × Engine) := []
  calls : Nat := 0

/-- What an operation answers, the registry after it, and what it logged. -/
structure Reply (α : Type) where
  answer : Except RegistryError α
  registry : Registry
  log : List LogRecord := []

namespace Reply

/-- An operation, and then another one on the registry after it, unless the first one failed. -/
def andThen {α : Type} (first : Reply Unit) (next : Registry → Reply α) : Reply α :=
  match first.answer with
  | .error e => { answer := .error e, registry := first.registry, log := first.log }
  | .ok () =>
      let second := next first.registry
      { second with log := first.log ++ second.log }

/-- An operation, some of whose errors are passed over with a record. -/
def passingOver (reply : Reply Unit) (p : RegistryError → Bool) (record : LogRecord) :
    Reply Unit :=
  match reply.answer with
  | .ok () => reply
  | .error e =>
      if p e then { answer := .ok (), registry := reply.registry, log := reply.log ++ [record] }
      else reply

end Reply

namespace Registry

def names (r : Registry) : List String :=
  (r.factories.map (·.1)).mergeSort fun a b => decide (a ≤ b)

def contains (r : Registry) (name : String) : Bool :=
  (assoc? name r.factories).isSome

def size (r : Registry) : Nat :=
  r.factories.length

def describe (r : Registry) : String :=
  "SyntaxRegistry(syntaxes=" ++ Text.quotedList r.names ++ ")"

/-- Puts a factory under a name that is not taken. -/
def register (r : Registry) (name : String) (offer : Offer) : Reply Unit :=
  if r.contains name then { answer := .error (.alreadyRegistered name), registry := r }
  else
    match offer with
    | .value shown =>
        { answer := .error (.showing shown (.notCallable name)), registry := r }
    | .factory f =>
        let kept := { r with factories := r.factories ++ [(name, f)] }
        -- The label is found out for the log, when the factory is in its place.
        match f.label with
        | .ok label =>
            { answer := .ok (), registry := kept, log := [.registered name label] }
        | .error e => { answer := .error (.raised e), registry := kept }

def deregister (r : Registry) (name : String) : Reply Unit :=
  if r.contains name then
    { answer := .ok ()
      registry :=
        { r with
          factories := dropKey name r.factories
          engines := dropKey name r.engines }
      log := [.deregistered name] }
  else { answer := .error (.notRegistered name r.names), registry := r }

def get (r : Registry) (name : String) : Except RegistryError Factory :=
  match assoc? name r.factories with
  | some f => .ok f
  | none => .error (.notRegistered name r.names)

/-- The shared engine under a name, built if there is none yet. -/
def create (r : Registry) (name : String) : Reply Engine :=
  match r.get name with
  | .error e => { answer := .error e, registry := r }
  | .ok f =>
      match assoc? name r.engines with
      | some engine => { answer := .ok engine, registry := r }
      | none =>
          let called := { r with calls := r.calls + 1 }
          match (f.call r.calls).made name r.calls with
          | .error e => { answer := .error e, registry := called }
          | .ok engine =>
              { answer := .ok engine
                registry := { called with engines := r.engines ++ [(name, engine)] }
                log := [.built name engine.dialect] }

def parse (r : Registry) (name text : String) : Reply Path :=
  let made := r.create name
  match made.answer with
  | .error e => { answer := .error e, registry := made.registry, log := made.log }
  | .ok engine =>
      match engine.dialect.parse text with
      | .ok p => { answer := .ok p, registry := made.registry, log := made.log }
      | .error e =>
          let rejection :=
            match e with
            | .invalidName path bad => [LogRecord.rejected engine.dialect.name path bad]
            | _ => []
          { answer := .error (.path e), registry := made.registry, log := made.log ++ rejection }

def unixFactory (id : Nat) : Factory :=
  ⟨id, .ok "create_unix_engine", fun _ => .dialect Unix.dialect⟩

def windowsFactory (id : Nat) : Factory :=
  ⟨id, .ok "create_windows_engine", fun _ => .dialect Windows.dialect⟩

/-- The registry that holds the dialects of this library. -/
def standard : Registry where
  factories := [("unix", unixFactory 0), ("windows", windowsFactory 1)]

end Registry

end LexicalPath
