import LexicalPath.Decimal.Digits
import LexicalPath.Text.Quoted

/-!
Paths that are already taken apart: a root, which may be absent, and names in order. Nothing here
knows how a path is written. Two paths are equal when root and names are, so `a/..` and the empty
path differ.
-/

namespace LexicalPath

/-- A path: an optional root and the names below it, the one nearest to the root first. -/
structure Path where
  root : Option String := none
  names : List String := []
  deriving DecidableEq, Inhabited

inductive RangeError where
  | name (index : Int) (count : Nat)
  | subpath (first last : Int) (count : Nat)
  /-- The message would show a whole number of more digits than are allowed. -/
  | tooLong (allowed : Nat)
  deriving DecidableEq

namespace RangeError

def message : RangeError → String
  | name index count => s!"name index {index} out of range for {count} name(s)"
  | subpath first last count =>
      s!"invalid subpath range [{first}, {last}) for {count} name(s)"
  | tooLong allowed => Decimal.lengthMessage allowed none

/-- An error whose message shows some whole numbers, where a limit may be set to their digits. -/
def showing (limit : Option Nat) (numbers : List Int) (e : RangeError) : RangeError :=
  match limit with
  | none => e
  | some allowed => if numbers.all (Decimal.fits allowed) then e else .tooLong allowed

end RangeError

namespace Path

def empty : Path := {}

def relative (names : List String) : Path := { names }

def isEmpty (p : Path) : Bool :=
  p.root.isNone && p.names.isEmpty

def nameCount (p : Path) : Nat :=
  p.names.length

def fileName? (p : Path) : Option String :=
  p.names.getLast?

/-- The path without its last name. A path without names has no parent; the parent of a single name
is the empty path. -/
def parent? (p : Path) : Option Path :=
  if p.names.isEmpty then none else some { p with names := p.names.dropLast }

def name (p : Path) (limit : Option Nat) (index : Int) : Except RangeError String :=
  match if index < 0 then none else p.names[index.toNat]? with
  | some name => .ok name
  | none => .error ((RangeError.name index p.nameCount).showing limit [index, p.nameCount])

/-- The relative path of the names from position `first` up to, but not including, `last`. The range
must hold at least one name. -/
def subpath (p : Path) (limit : Option Nat) (first last : Int) : Except RangeError Path :=
  if 0 ≤ first ∧ first < last ∧ last ≤ p.nameCount then
    .ok (relative ((p.names.take last.toNat).drop first.toNat))
  else
    .error
      ((RangeError.subpath first last p.nameCount).showing limit [first, last, p.nameCount])

/-- Whether the other path has the same root and its names come first among the names of this
one. -/
def startsWith (p other : Path) : Bool :=
  p.root = other.root && other.names.isPrefixOf p.names

/-- Whether the other path is the last part of this one. A rooted path is the last part of itself
only. -/
def endsWith (p other : Path) : Bool :=
  if other.root.isSome then p = other else other.names.isSuffixOf p.names

def describe (p : Path) : String :=
  "PathValue(root=" ++ Text.quotedOption p.root ++ ", names=" ++ Text.quotedList p.names ++ ")"

end Path

end LexicalPath
