import LexicalPath.Proofs.Resolve.Basic

namespace LexicalPath

namespace Dialect

def resolveFromLeft (d : Dialect) (a b c : Path) : Except PathError Path := do
  let place ← d.resolve a b
  d.resolve place c

def resolveFromRight (d : Dialect) (a b c : Path) : Except PathError Path := do
  let way ← d.resolve b c
  d.resolve a way

theorem resolveFromLeft_of_ok {d : Dialect} {a b place : Path} (h : d.resolve a b = .ok place)
    (c : Path) : d.resolveFromLeft a b c = d.resolve place c := by
  rw [resolveFromLeft, h]
  rfl

theorem resolveFromLeft_of_error {d : Dialect} {a b : Path} {e : PathError}
    (h : d.resolve a b = .error e) (c : Path) : d.resolveFromLeft a b c = .error e := by
  rw [resolveFromLeft, h]
  rfl

theorem resolveFromRight_of_ok {d : Dialect} {b c way : Path} (h : d.resolve b c = .ok way)
    (a : Path) : d.resolveFromRight a b c = d.resolve a way := by
  rw [resolveFromRight, h]
  rfl

theorem resolveFromRight_of_error {d : Dialect} {b c : Path} {e : PathError}
    (h : d.resolve b c = .error e) (a : Path) : d.resolveFromRight a b c = .error e := by
  rw [resolveFromRight, h]
  rfl

end Dialect

/-- Both are the same path, or both are refused for a path whose root does not make it absolute. -/
inductive Alike : Except PathError Path → Except PathError Path → Prop where
  | path (p : Path) : Alike (.ok p) (.ok p)
  | refused (base other base' other' : Path) :
      Alike (.error (.rootedRelative base other)) (.error (.rootedRelative base' other'))

namespace StandardDialect

variable (s : StandardDialect)

theorem exists_resolve (a : Path) {b : Path} (hb : ¬ s.dialect.IsRootedRelative b) :
    ∃ place, s.dialect.resolve a b = .ok place := by
  rcases s.resolve_cases a b with ⟨-, h⟩ | ⟨hrooted, -⟩ | ⟨-, h⟩
  · exact ⟨_, h⟩
  · exact absurd hrooted hb
  · exact ⟨b, h⟩

theorem alike_of_root_eq_none (a b : Path) {c : Path} (hc : c.root = none) :
    Alike (s.dialect.resolveFromLeft a b c) (s.dialect.resolveFromRight a b c) := by
  rw [Dialect.resolveFromRight_of_ok (s.resolve_of_root_eq_none hc b)]
  -- The names of `c` go with `b`, and which way `b` is taken is for its root to tell.
  generalize hbc : ({ b with names := b.names ++ c.names } : Path) = bc
  have hroot : bc.root = b.root := by rw [← hbc]
  have hjudged := s.isAbsolute_congr hroot
  rcases s.root_cases b with hb | hb | hb
  · rw [Dialect.resolveFromLeft_of_ok (s.resolve_of_root_eq_none hb a),
      s.resolve_of_root_eq_none hc, s.resolve_of_root_eq_none (hroot.trans hb), ← hbc,
      List.append_assoc]
    exact Alike.path _
  · have hbc' : s.dialect.IsRootedRelative bc := ⟨hroot ▸ hb.1, hjudged.trans hb.2⟩
    rw [Dialect.resolveFromLeft_of_error (Dialect.resolve_of_isRootedRelative hb a),
      Dialect.resolve_of_isRootedRelative hbc']
    exact Alike.refused _ _ _ _
  · have hbc' : s.dialect.IsAbsolute bc := hjudged.trans hb
    rw [Dialect.resolveFromLeft_of_ok (Dialect.resolve_of_isAbsolute hb a),
      s.resolve_of_root_eq_none hc, Dialect.resolve_of_isAbsolute hbc', hbc]
    exact Alike.path _

theorem alike_of_isRootedRelative (a b : Path) {c : Path} (hc : s.dialect.IsRootedRelative c) :
    Alike (s.dialect.resolveFromLeft a b c) (s.dialect.resolveFromRight a b c) := by
  rw [Dialect.resolveFromRight_of_error (Dialect.resolve_of_isRootedRelative hc b)]
  by_cases hb : s.dialect.IsRootedRelative b
  · rw [Dialect.resolveFromLeft_of_error (Dialect.resolve_of_isRootedRelative hb a)]
    exact Alike.refused _ _ _ _
  · obtain ⟨place, hplace⟩ := s.exists_resolve a hb
    rw [Dialect.resolveFromLeft_of_ok hplace, Dialect.resolve_of_isRootedRelative hc]
    exact Alike.refused _ _ _ _

theorem resolveFromRight_of_isAbsolute (a b : Path) {c : Path} (hc : s.dialect.IsAbsolute c) :
    s.dialect.resolveFromRight a b c = .ok c := by
  rw [Dialect.resolveFromRight_of_ok (Dialect.resolve_of_isAbsolute hc b),
    Dialect.resolve_of_isAbsolute hc]

theorem alike_of_isAbsolute (a : Path) {b c : Path} (hb : ¬ s.dialect.IsRootedRelative b)
    (hc : s.dialect.IsAbsolute c) :
    Alike (s.dialect.resolveFromLeft a b c) (s.dialect.resolveFromRight a b c) := by
  obtain ⟨place, hplace⟩ := s.exists_resolve a hb
  rw [Dialect.resolveFromLeft_of_ok hplace, Dialect.resolve_of_isAbsolute hc,
    s.resolveFromRight_of_isAbsolute a b hc]
  exact Alike.path c

theorem alike_of_not_hidden (a : Path) {b c : Path}
    (h : ¬ (s.dialect.IsRootedRelative b ∧ s.dialect.IsAbsolute c)) :
    Alike (s.dialect.resolveFromLeft a b c) (s.dialect.resolveFromRight a b c) := by
  rcases s.root_cases c with hc | hc | hc
  · exact s.alike_of_root_eq_none a b hc
  · exact s.alike_of_isRootedRelative a b hc
  · exact s.alike_of_isAbsolute a (fun hb => h ⟨hb, hc⟩) hc

theorem resolve_empty_eq_self_iff (p : Path) :
    s.dialect.resolve .empty p = .ok p ↔ s.dialect.IsAbsolute p ∨ p.root = none := by
  constructor
  · intro h
    rcases s.resolve_cases .empty p with ⟨hrelative, -⟩ | ⟨-, hrefused⟩ | ⟨habsolute, -⟩
    · exact Or.inr hrelative
    · rw [hrefused] at h
      cases h
    · exact Or.inl habsolute
  · rintro (habsolute | hrelative)
    · exact Dialect.resolve_of_isAbsolute habsolute _
    · rw [s.resolve_of_root_eq_none hrelative]
      obtain ⟨_, names⟩ := p
      subst hrelative
      rfl

end StandardDialect

/-- Resolving is associative, in what it gives and in what it refuses, unless a path with a root
that is not absolute stands in front of an absolute one. The empty path changes nothing on the
right, and on the left of a path that is absolute or has no root. -/
theorem resolve_assoc (s : StandardDialect) (a b c : Path) :
    ((¬ (s.dialect.IsRootedRelative b ∧ s.dialect.IsAbsolute c) ∧
        Alike (s.dialect.resolveFromLeft a b c) (s.dialect.resolveFromRight a b c)) ∨
      (s.dialect.IsRootedRelative b ∧ s.dialect.IsAbsolute c ∧
        s.dialect.resolveFromLeft a b c = .error (.rootedRelative a b) ∧
        s.dialect.resolveFromRight a b c = .ok c)) ∧
    s.dialect.resolve a .empty = .ok a ∧
    (s.dialect.resolve .empty b = .ok b ↔ s.dialect.IsAbsolute b ∨ b.root = none) := by
  refine ⟨?_, ?_, s.resolve_empty_eq_self_iff b⟩
  · by_cases h : s.dialect.IsRootedRelative b ∧ s.dialect.IsAbsolute c
    · obtain ⟨hb, hc⟩ := h
      refine Or.inr ⟨hb, hc, ?_, s.resolveFromRight_of_isAbsolute a b hc⟩
      exact Dialect.resolveFromLeft_of_error (Dialect.resolve_of_isRootedRelative hb a) c
    · exact Or.inl ⟨h, s.alike_of_not_hidden a h⟩
  · rw [s.resolve_of_root_eq_none rfl]
    simp [Path.empty]

/-- The drive `D:` is refused wherever it is used, unless it is hidden before it is used. -/
example :
    Windows.dialect.resolveFromLeft ⟨some "C:\\", []⟩ ⟨some "D:", []⟩ ⟨some "E:\\", ["x"]⟩ =
        .error (.rootedRelative ⟨some "C:\\", []⟩ ⟨some "D:", []⟩) ∧
      Windows.dialect.resolveFromRight ⟨some "C:\\", []⟩ ⟨some "D:", []⟩ ⟨some "E:\\", ["x"]⟩ =
        .ok ⟨some "E:\\", ["x"]⟩ := by
  decide

end LexicalPath
