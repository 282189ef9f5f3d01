import Mathlib.Data.List.Chain
import LexicalPath.Proofs.Resolve.Basic

namespace LexicalPath

-- Powers are the core library's, as in the definitions.
attribute [local instance (high)] instPowNat

namespace Path

def piece (p : Path) (first last : Int) : Path :=
  relative ((p.names.take last.toNat).drop first.toNat)

end Path

namespace StandardDialect

variable (s : StandardDialect)

end StandardDialect

end LexicalPath
