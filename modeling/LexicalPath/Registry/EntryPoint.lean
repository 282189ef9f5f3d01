import LexicalPath.Registry.Basic

/-!
Entry points, by which other packages offer dialects. Those that cannot be loaded or do not fit are
passed over, and names that are registered stay as they are. Errors of other kinds leave the
loading, and the entry points that are left are not looked at.
-/

namespace LexicalPath

structure EntryPoint where
  name : String
  group : String
  /-- The offer, unless loading it raises something. -/
  load : Except Raised Offer
  /-- What the code that is loaded registers on its own, in order, before there is an offer. -/
  registers : List (String × Offer) := []

def EntryPoint.dialectGroup : String :=
  "pathnames.syntaxes"

namespace Registry

/-- Registers offers in order, up to the first that fails. -/
def registerAll (r : Registry) : List (String × Offer) → Reply Unit
  | [] => { answer := .ok (), registry := r }
  | (name, offer) :: rest => (r.register name offer).andThen fun next => next.registerAll rest

/-- Loads what an entry point offers. -/
def fetch (r : Registry) (e : EntryPoint) : Reply Offer :=
  (r.registerAll e.registers).andThen fun next =>
    { answer := e.load.mapError .raised, registry := next }

def loadEntryPoint (r : Registry) (e : EntryPoint) : Reply Unit :=
  if r.contains e.name then { answer := .ok (), registry := r, log := [.entryPointKnown e.name] }
  else
    let fetched := r.fetch e
    match fetched.answer with
    | .error error =>
        let failed : Reply Unit := { fetched with answer := .error error }
        failed.passingOver RegistryError.isError (.entryPointFailed e.name e.group)
    | .ok offer =>
        let taken : Reply Unit := { fetched with answer := .ok () }
        taken.andThen fun next =>
          (next.register e.name offer).passingOver RegistryError.isUnfit (.entryPointUnfit e.name)

def loadEntryPoints (r : Registry) (group : String) : List EntryPoint → Reply Unit
  | [] => { answer := .ok (), registry := r }
  | e :: rest =>
      if e.group = group then
        (r.loadEntryPoint e).andThen fun next => next.loadEntryPoints group rest
      else r.loadEntryPoints group rest

end Registry

end LexicalPath
