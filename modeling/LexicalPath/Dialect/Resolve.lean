import LexicalPath.Dialect.Basic

namespace LexicalPath.Dialect

/-- The path `other` as seen from `base`. An absolute path does not depend on `base`; one without a
root is put behind it; one with a root that is not absolute cannot be resolved. -/
def resolve (d : Dialect) (base other : Path) : Except PathError Path :=
  match d.grammar.isAbsolute other with
  | .error e => .error e
  | .ok true => .ok other
  | .ok false =>
      if other.root.isSome then .error (.rootedRelative base other)
      else if other.names.isEmpty then .ok base
      else .ok { root := base.root, names := base.names ++ other.names }

/-- The path `other` as seen from the parent of `base`, or unchanged where there is no parent. -/
def resolveSibling (d : Dialect) (base other : Path) : Except PathError Path :=
  match base.parent? with
  | none => .ok other
  | some parent => d.resolve parent other

end LexicalPath.Dialect

namespace LexicalPath

/-- What is left of two lists behind the elements that they begin with in common. -/
def afterCommon : List String → List String → List String × List String
  | a :: as, b :: bs => if a = b then afterCommon as bs else (a :: as, b :: bs)
  | as, bs => (as, bs)

/-- A relative path that leads from `base` to `other`: up by each name of `base` that the two do not
begin with in common, then down to `other`. -/
def Dialect.relativize (d : Dialect) (base other : Path) : Except PathError Path :=
  if base.root = other.root then
    let rests := afterCommon base.names other.names
    .ok (.relative (List.replicate rests.1.length d.grammar.parentName ++ rests.2))
  else .error (.incompatibleRoots base other)

end LexicalPath
