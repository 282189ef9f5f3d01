import LexicalPath.Proofs.Collapse.Dotted

namespace LexicalPath

namespace Dialect

def IsAbsolute (d : Dialect) (p : Path) : Prop :=
  d.isAbsolute p = .ok true

/-- The path has a root and still depends on where it is used. -/
def IsRootedRelative (d : Dialect) (p : Path) : Prop :=
  p.root ≠ none ∧ d.isAbsolute p = .ok false

theorem resolve_of_isAbsolute {d : Dialect} {other : Path} (h : d.IsAbsolute other) (base : Path) :
    d.resolve base other = .ok other := by
  rw [IsAbsolute, isAbsolute] at h
  rw [resolve, h]

theorem resolve_of_isRootedRelative {d : Dialect} {other : Path} (h : d.IsRootedRelative other)
    (base : Path) : d.resolve base other = .error (.rootedRelative base other) := by
  obtain ⟨hroot, habsolute⟩ := h
  rw [isAbsolute] at habsolute
  rw [resolve, habsolute]
  exact if_pos (Option.isSome_iff_ne_none.mpr hroot)

end Dialect

namespace StandardDialect

variable (s : StandardDialect)

theorem isAbsolute_congr {p q : Path} (h : p.root = q.root) :
    s.dialect.isAbsolute p = s.dialect.isAbsolute q := by
  obtain ⟨root, names⟩ := p
  obtain ⟨_, names'⟩ := q
  subst h
  cases s <;> rfl

theorem exists_isAbsolute (p : Path) : ∃ absolute, s.dialect.isAbsolute p = .ok absolute := by
  cases s <;> exact ⟨_, rfl⟩

theorem root_cases (p : Path) :
    p.root = none ∨ s.dialect.IsRootedRelative p ∨ s.dialect.IsAbsolute p := by
  by_cases hroot : p.root = none
  · exact Or.inl hroot
  · obtain ⟨absolute, habsolute⟩ := s.exists_isAbsolute p
    cases absolute with
    | false => exact Or.inr (Or.inl ⟨hroot, habsolute⟩)
    | true => exact Or.inr (Or.inr habsolute)

theorem resolve_of_root_eq_none {other : Path} (h : other.root = none) (base : Path) :
    s.dialect.resolve base other = .ok { base with names := base.names ++ other.names } := by
  obtain ⟨_, names⟩ := other
  subst h
  exact s.dotted.resolve_relative base names

theorem resolve_cases (base other : Path) :
    (other.root = none ∧
        s.dialect.resolve base other = .ok { base with names := base.names ++ other.names }) ∨
      (s.dialect.IsRootedRelative other ∧
        s.dialect.resolve base other = .error (.rootedRelative base other)) ∨
      (s.dialect.IsAbsolute other ∧ s.dialect.resolve base other = .ok other) := by
  rcases s.root_cases other with hrelative | hrooted | habsolute
  · exact Or.inl ⟨hrelative, s.resolve_of_root_eq_none hrelative base⟩
  · exact Or.inr (Or.inl ⟨hrooted, Dialect.resolve_of_isRootedRelative hrooted base⟩)
  · exact Or.inr (Or.inr ⟨habsolute, Dialect.resolve_of_isAbsolute habsolute base⟩)

end StandardDialect

end LexicalPath
