import LexicalPath.Dialect.Basic

namespace LexicalPath

/-- What a name stands for. -/
inductive NameKind where
  | self
  | parent
  | regular
  deriving DecidableEq

/-- The names kept so far, the last one first, and whether a regular name has been met. -/
structure Collapse where
  kept : List String := []
  anchored : Bool := false
  deriving DecidableEq

namespace Collapse

def push (c : Collapse) (kind : NameKind) (name : String) : Collapse :=
  match kind with
  | .self => c
  | .regular => ⟨name :: c.kept, true⟩
  | .parent =>
      match c.anchored, c.kept with
      | true, _ :: rest => ⟨rest, true⟩
      | anchored, kept => ⟨name :: kept, anchored⟩

def run (c : Collapse) : List (NameKind × String) → Collapse
  | [] => c
  | (kind, name) :: rest => (c.push kind name).run rest

end Collapse

/-- The names that are left after collapsing. -/
def collapse (names : List (NameKind × String)) : List String :=
  (Collapse.run {} names).kept.reverse

/-- What a name stands for in a grammar. A name that could be both a self and a parent name is a
self name. -/
def Grammar.kind (g : Grammar) (name : String) : Except PathError NameKind :=
  match g.isSelf name with
  | .error e => .error e
  | .ok true => .ok .self
  | .ok false =>
      match g.isParent name with
      | .error e => .error e
      | .ok true => .ok .parent
      | .ok false => .ok .regular

def Grammar.kinds (g : Grammar) : List String → Except PathError (List (NameKind × String))
  | [] => .ok []
  | name :: rest =>
      match g.kind name with
      | .error e => .error e
      | .ok kind =>
          match g.kinds rest with
          | .error e => .error e
          | .ok kinds => .ok ((kind, name) :: kinds)

def Dialect.normalize (d : Dialect) (p : Path) : Except PathError Path :=
  match d.grammar.kinds p.names with
  | .error e => .error e
  | .ok kinds => .ok { p with names := collapse kinds }

end LexicalPath
