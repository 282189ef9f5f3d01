import Mathlib.Data.List.Infix
import LexicalPath.Proofs.Resolve.Parts

namespace LexicalPath

namespace Path

theorem startsWith_iff_isPrefix (p other : Path) :
    p.startsWith other = true ↔ p.root = other.root ∧ other.names <+: p.names := by
  simp only [startsWith_iff, List.IsPrefix, eq_comm (b := p.names)]

theorem endsWith_iff_isSuffix (p other : Path) :
    p.endsWith other = true ↔ p = other ∨ other.root = none ∧ other.names <:+ p.names := by
  simp only [endsWith_iff, List.IsSuffix, eq_comm (b := p.names)]

theorem ext {p q : Path} (hroot : p.root = q.root) (hnames : p.names = q.names) : p = q := by
  obtain ⟨root, names⟩ := p
  subst hroot hnames
  rfl

theorem startsWith_trans {p q r : Path} (hp : p.startsWith q = true) (hq : q.startsWith r = true) :
    p.startsWith r = true := by
  rw [startsWith_iff_isPrefix] at hp hq ⊢
  exact ⟨hp.1.trans hq.1, hq.2.trans hp.2⟩

theorem startsWith_antisymm {p q : Path} (hp : p.startsWith q = true)
    (hq : q.startsWith p = true) : p = q := by
  rw [startsWith_iff_isPrefix] at hp hq
  exact ext hp.1 (antisymm_of (· <+: ·) hq.2 hp.2)

theorem endsWith_trans {p q r : Path} (hp : p.endsWith q = true) (hq : q.endsWith r = true) :
    p.endsWith r = true := by
  rw [endsWith_iff_isSuffix] at hp hq ⊢
  rcases hp with rfl | ⟨hmiddle, hp⟩
  · exact hq
  rcases hq with rfl | ⟨hroot, hq⟩
  · exact Or.inr ⟨hmiddle, hp⟩
  · exact Or.inr ⟨hroot, hq.trans hp⟩

theorem endsWith_antisymm {p q : Path} (hp : p.endsWith q = true) (hq : q.endsWith p = true) :
    p = q := by
  rw [endsWith_iff_isSuffix] at hp hq
  rcases hp with rfl | ⟨hq', hp⟩
  · rfl
  rcases hq with rfl | ⟨hp', hq⟩
  · rfl
  · exact ext (hp'.trans hq'.symm) (antisymm_of (· <:+ ·) hq hp)

end Path

/-- A path starts with another one iff it has its root and goes on behind its names, and it ends
with another one iff it is the same, or the other one has no root and names stand in front of its
names. Both relations are partial orders. -/
theorem parts_ordered :
    (∀ p other : Path, p.startsWith other = true ↔
      p.root = other.root ∧ ∃ more, p.names = other.names ++ more) ∧
    (∀ p other : Path, p.endsWith other = true ↔
      p = other ∨ other.root = none ∧ ∃ front, p.names = front ++ other.names) ∧
    IsPartialOrder Path (fun other p => p.startsWith other = true) ∧
    IsPartialOrder Path (fun other p => p.endsWith other = true) := by
  refine ⟨Path.startsWith_iff, Path.endsWith_iff, ?_, ?_⟩
  · exact
      { refl := fun p => (p.startsWith_iff_isPrefix p).mpr ⟨rfl, List.prefix_rfl⟩
        trans := fun _ _ _ hq hp => Path.startsWith_trans hp hq
        antisymm := fun _ _ hq hp => Path.startsWith_antisymm hp hq }
  · exact
      { refl := fun p => (p.endsWith_iff_isSuffix p).mpr (Or.inl rfl)
        trans := fun _ _ _ hq hp => Path.endsWith_trans hp hq
        antisymm := fun _ _ hq hp => Path.endsWith_antisymm hp hq }

/-- The root alone is the first part of a path, and not the last part. -/
example :
    Path.startsWith ⟨some "/", ["a"]⟩ ⟨some "/", []⟩ = true ∧
      Path.endsWith ⟨some "/", ["a"]⟩ ⟨some "/", []⟩ = false ∧
      Path.endsWith ⟨some "/", ["a"]⟩ ⟨none, []⟩ = true := by
  decide

end LexicalPath
