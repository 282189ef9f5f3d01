import LexicalPath.Proofs.Document.Fields
import LexicalPath.Proofs.Yaml.Flat

namespace LexicalPath.Document

/-- The path that is read back for a path. -/
def readBack (p : Path) : Path :=
  { root := p.root.map Yaml.readBackText, names := p.names.map Yaml.readBackText }

theorem readBack_eq_self_iff (p : Path) :
    readBack p = p ↔ ∀ s ∈ p.root.toList ++ p.names,
      '\x85' ∈ s.toList → Yaml.needsDouble s.toList = true := by
  obtain ⟨root, names⟩ := p
  have hnames : names.map Yaml.readBackText = names ↔ ∀ s ∈ names, Yaml.readBackText s = s := by
    simpa using List.map_eq_map_iff (f := Yaml.readBackText) (g := id) (l := names)
  simp only [← Yaml.readBackText_eq_self_iff, List.forall_mem_append, ← hnames]
  cases root <;> simp [readBack]

theorem isKey_kind : Yaml.IsKey "kind" :=
  ⟨⟨by decide, by decide, List.all_eq_true.mp (by decide)⟩, by decide⟩

theorem isKey_root : Yaml.IsKey "root" :=
  ⟨⟨by decide, by decide, List.all_eq_true.mp (by decide)⟩, by decide⟩

theorem isKey_names : Yaml.IsKey "names" :=
  ⟨⟨by decide, by decide, List.all_eq_true.mp (by decide)⟩, by decide⟩

theorem ofYaml_toYaml_eq_readBack (p : Path) : ofYaml (toYaml p) = .ok (readBack p) := by
  obtain ⟨d, f, hread, hfields, hvalues⟩ := Yaml.read_writeFields
    [("kind", .text pathKind), ("root", p.root.elim .null .text), ("names", .texts p.names)]
    (by simp) (by simp [isKey_kind, isKey_root, isKey_names]) (by simp)
  have hkind : Yaml.readBackText pathKind = pathKind :=
    (Yaml.readBackText_eq_self_iff pathKind).mpr fun hline => absurd hline (by decide)
  have hshape : ofFields f = .ok (readBack p) := by
    apply ofFields_eq
    · rw [hvalues ("kind", .text pathKind) (by simp), Yaml.Field.readBack, hkind]
    · rw [hvalues ("root", p.root.elim .null .text) (by simp)]
      cases hroot : p.root <;> simp [readBack, hroot, Yaml.Field.readBack]
    · rw [hvalues ("names", .texts p.names) (by simp)]
      rfl
  rw [ofYaml, toYaml, hread]
  simp only [hfields, hshape, Except.mapError]

theorem ofYaml_toYaml_next_line :
    ofYaml (toYaml ⟨none, ["\x85"]⟩) ≠ .ok ⟨none, ["\x85"]⟩ := by
  rw [ofYaml_toYaml_eq_readBack]
  intro h
  have hself := (readBack_eq_self_iff _).mp (Except.ok.inj h)
  exact absurd (hself "\x85" (by simp) (by decide)) (by decide)

/-- A path is always read from what is written for it. It is the same path exactly if each of its
texts that holds a next line character is one that is written in double quotes. -/
theorem ofYaml_toYaml (p : Path) :
    ofYaml (toYaml p) = .ok (readBack p) ∧
      (ofYaml (toYaml p) = .ok p ↔ ∀ s ∈ p.root.toList ++ p.names,
        '\x85' ∈ s.toList → Yaml.needsDouble s.toList = true) := by
  refine ⟨ofYaml_toYaml_eq_readBack p, ?_⟩
  rw [ofYaml_toYaml_eq_readBack, ← readBack_eq_self_iff]
  exact ⟨Except.ok.inj, congrArg Except.ok⟩

end LexicalPath.Document
