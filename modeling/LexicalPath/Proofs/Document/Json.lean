import LexicalPath.Proofs.Document.Fields
import LexicalPath.Proofs.Json.Written

namespace LexicalPath.Document

theorem plain_ofPath (p : Path) (room : Nat) : Json.Plain (room + 2) (ofPath p) := by
  change Json.Plain (room + 2) (.mapping (Json.keyed [("kind", .text pathKind),
    ("root", p.root.elim .null .text), ("names", .list (p.names.map .text))]))
  apply Json.Plain.mapping
  · change ["kind", "root", "names"].Nodup
    decide
  · simp only [List.mem_cons, List.not_mem_nil, or_false]
    rintro entry (rfl | rfl | rfl)
    · exact .text pathKind
    · cases p.root with
      | none => exact .null
      | some s => exact .text s
    · apply Json.Plain.list
      intro item hitem
      obtain ⟨name, -, rfl⟩ := List.mem_map.mp hitem
      exact .text name

/-- With every indentation a path is read back from the JSON that is written for it, whatever
characters its root and its names hold. -/
theorem ofJson_toJson (p : Path) (indent : Option Int) : ofJson (toJson p indent) = .ok p := by
  rw [ofJson, toJson, Json.read_write (plain_ofPath p 988) indent]
  simp only [toPath_ofPath]
  rfl

end LexicalPath.Document
