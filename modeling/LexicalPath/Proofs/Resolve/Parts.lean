import LexicalPath.Proofs.Hop

namespace LexicalPath

namespace Path

theorem startsWith_iff (p other : Path) :
    p.startsWith other = true ↔ p.root = other.root ∧ ∃ more, p.names = other.names ++ more := by
  simp [startsWith, List.IsPrefix, eq_comm (b := p.names)]

theorem endsWith_iff (p other : Path) :
    p.endsWith other = true ↔
      p = other ∨ other.root = none ∧ ∃ front, p.names = front ++ other.names := by
  obtain ⟨root, names⟩ := other
  cases root with
  | some root => simp [endsWith]
  | none =>
      have hsuffix : p.endsWith ⟨none, names⟩ = true ↔ ∃ front, p.names = front ++ names := by
        simp [endsWith, List.IsSuffix, eq_comm (b := p.names)]
      rw [hsuffix]
      constructor
      · intro h
        exact Or.inr ⟨rfl, h⟩
      · rintro (rfl | ⟨-, h⟩)
        · exact ⟨[], rfl⟩
        · exact h

end Path

theorem hopNames_self_append (names more : List String) :
    hopNames names (names ++ more) = more := by
  have hcommon := hopNames_append names [] more
  rw [List.append_nil] at hcommon
  rw [hcommon]
  simp [hopNames, afterCommon]

theorem append_hopNames_eq_iff (names goal : List String) :
    names ++ hopNames names goal = goal ↔ ∃ more, goal = names ++ more := by
  constructor
  · intro h
    exact ⟨hopNames names goal, h.symm⟩
  · rintro ⟨more, rfl⟩
    rw [hopNames_self_append]

theorem Dialect.Dotted.relativize_append {d : Dialect} (hd : d.Dotted) (base : Path)
    (names : List String) :
    d.relativize base { base with names := base.names ++ names } = .ok (.relative names) := by
  have hroot : base.root = ({ base with names := base.names ++ names } : Path).root := rfl
  rw [hd.relativize_eq hroot, hopNames_self_append]

/-- A relative path is got back from what it is resolved to, which has the base and the relative
path as its parts. Resolving the hop from `a` to `b` gives `b` iff `b` starts with `a`. -/
theorem resolve_parts (s : StandardDialect) :
    (∀ base other : Path, other.root = none →
      ∃ place, s.dialect.resolve base other = .ok place ∧
        s.dialect.relativize base place = .ok other ∧
        place.startsWith base = true ∧ place.endsWith other = true) ∧
    ∀ a b : Path, a.root = b.root →
      ∃ hop place, s.dialect.relativize a b = .ok hop ∧ s.dialect.resolve a hop = .ok place ∧
        (place = b ↔ b.startsWith a = true) := by
  constructor
  · rintro base ⟨_, names⟩ rfl
    refine ⟨_, s.dotted.resolve_relative base names, s.dotted.relativize_append base names, ?_, ?_⟩
    · apply (Path.startsWith_iff _ base).mpr
      exact ⟨rfl, names, rfl⟩
    · apply (Path.endsWith_iff _ _).mpr
      exact Or.inr ⟨rfl, base.names, rfl⟩
  · intro a b hroot
    refine ⟨_, _, s.dotted.relativize_eq hroot, s.dotted.resolve_relative a _, ?_⟩
    rw [Path.startsWith_iff, ← append_hopNames_eq_iff]
    obtain ⟨root, names⟩ := b
    subst hroot
    simp

/-- The names of the relative path are those at the end of the base once more, and the way back up
does not start with where it came from. -/
theorem resolve_parts_repeated :
    (∃ place, Windows.dialect.resolve ⟨some "C:", ["a", ".."]⟩ ⟨none, ["a", ".."]⟩ = .ok place ∧
      Windows.dialect.relativize ⟨some "C:", ["a", ".."]⟩ place = .ok ⟨none, ["a", ".."]⟩ ∧
      place.startsWith ⟨some "C:", ["a", ".."]⟩ = true ∧
      place.endsWith ⟨none, ["a", ".."]⟩ = true) ∧
    ∃ hop place, Windows.dialect.relativize ⟨none, ["..", "a"]⟩ ⟨none, [".."]⟩ = .ok hop ∧
      Windows.dialect.resolve ⟨none, ["..", "a"]⟩ hop = .ok place ∧ place ≠ ⟨none, [".."]⟩ := by
  obtain ⟨happend, hback⟩ := resolve_parts .windows
  refine ⟨happend ⟨some "C:", ["a", ".."]⟩ ⟨none, ["a", ".."]⟩ rfl, ?_⟩
  obtain ⟨hop, place, hhop, hplace, hiff⟩ := hback ⟨none, ["..", "a"]⟩ ⟨none, [".."]⟩ rfl
  refine ⟨hop, place, hhop, hplace, ?_⟩
  rw [ne_eq, hiff]
  decide

end LexicalPath
