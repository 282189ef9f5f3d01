import LexicalPath.Dialect.Normalize
import LexicalPath.Dialect.Resolve
import LexicalPath.Registry.Basic

/-!
Paths bound to the engine of their dialect, so that operations chain. Two bound paths go together
only if they share one engine; equal dialects are not enough.
-/

namespace LexicalPath

/-- A path with the engine of its dialect. -/
structure BoundPath where
  engine : Engine
  value : Path

/-- What a bound path can be combined with. -/
inductive Operand where
  /-- A text, read in the dialect of the bound path. -/
  | text (s : String)
  | path (p : Path)
  | bound (b : BoundPath)

inductive BoundError where
  /-- The two paths are bound to different engines. -/
  | otherEngine (other own : String)
  | path (e : PathError)

def BoundError.message : BoundError → String
  | .otherEngine other own =>
      "Cannot combine a " ++ Text.quoted other ++ " path with a " ++ Text.quoted own ++ " path"
  | .path e => e.message

namespace BoundPath

def parse (engine : Engine) (text : String) : Except PathError BoundPath :=
  (engine.dialect.parse text).map fun value => { engine, value }

/-- The path that an operand stands for. -/
def operandValue (b : BoundPath) : Operand → Except BoundError Path
  | .text s => (b.engine.dialect.parse s).mapError .path
  | .path p => .ok p
  | .bound other =>
      if other.engine.id = b.engine.id then .ok other.value
      else .error (.otherEngine other.engine.dialect.name b.engine.dialect.name)

def name (b : BoundPath) : String :=
  b.value.fileName?.getD ""

def parent? (b : BoundPath) : Option BoundPath :=
  b.value.parent?.map fun value => { b with value }

def isAbsolute (b : BoundPath) : Except PathError Bool :=
  b.engine.dialect.isAbsolute b.value

def normalize (b : BoundPath) : Except PathError BoundPath :=
  (b.engine.dialect.normalize b.value).map fun value => { b with value }

/-- Applies an operation of the dialect to a bound path and an operand. -/
def combine (operation : Dialect → Path → Path → Except PathError Path) (b : BoundPath)
    (operand : Operand) : Except BoundError BoundPath :=
  match b.operandValue operand with
  | .error e => .error e
  | .ok other =>
      match operation b.engine.dialect b.value other with
      | .error e => .error (.path e)
      | .ok value => .ok { b with value }

def resolve (b : BoundPath) (operand : Operand) : Except BoundError BoundPath :=
  b.combine Dialect.resolve operand

def resolveSibling (b : BoundPath) (operand : Operand) : Except BoundError BoundPath :=
  b.combine Dialect.resolveSibling operand

/-- A relative path that leads from the bound path to the operand. -/
def relativize (b : BoundPath) (operand : Operand) : Except BoundError BoundPath :=
  b.combine Dialect.relativize operand

def startsWith (b : BoundPath) (operand : Operand) : Except BoundError Bool :=
  (b.operandValue operand).map b.value.startsWith

def endsWith (b : BoundPath) (operand : Operand) : Except BoundError Bool :=
  (b.operandValue operand).map b.value.endsWith

/-- Whether two bound paths are equal: they share their engine and their paths are equal. -/
def same (b other : BoundPath) : Bool :=
  b.engine.id = other.engine.id && b.value = other.value

def print (b : BoundPath) : String :=
  b.engine.dialect.print b.value

def describe (b : BoundPath) : String :=
  "PathName(" ++ Text.quoted b.print ++ ", syntax=" ++ Text.quoted b.engine.dialect.name ++ ")"

end BoundPath

end LexicalPath
