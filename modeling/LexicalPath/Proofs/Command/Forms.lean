import LexicalPath.Command.Run
import LexicalPath.Proofs.Command.Printed
import LexicalPath.Proofs.Dialect.Controls
import LexicalPath.Proofs.Document.Json
import LexicalPath.Proofs.Document.Yaml
import LexicalPath.Proofs.Json.Controls

namespace LexicalPath.Command

theorem escapeChar_notMem_toJson (p : Path) (indent : Option Int) :
    escapeChar ∉ (Document.toJson p indent).toList := by
  intro h
  rw [Document.toJson, Json.write, String.toList_ofList] at h
  have hclean := (Document.plain_ofPath p 988).isClean_writeAt indent 0 escapeChar h
  exact absurd hclean (by decide)

theorem escapeChar_notMem_toYaml (p : Path) : escapeChar ∉ (Document.toYaml p).toList := by
  intro h
  have hkeys : ∀ entry ∈ [("kind", Yaml.Field.text Document.pathKind),
      ("root", p.root.elim .null .text), ("names", .texts p.names)],
      Yaml.Lexer.IsWord entry.1.toList := by
    simp only [List.forall_mem_cons]
    exact ⟨Document.isKey_kind.word, Document.isKey_root.word, Document.isKey_names.word,
      List.forall_mem_nil _⟩
  have hsound := Yaml.isSound_writeFields hkeys h
  exact absurd hsound.1 (by decide)

theorem printed_written {f : Format} (hf : f = .json ∨ f = .yaml) (d : Dialect) (p : Path) :
    printed (written d f p ++ "\n") = written d f p ++ "\n" := by
  have hfree : escapeChar ∉ (written d f p).toList := by
    rcases hf with rfl | rfl
    · exact escapeChar_notMem_toJson p (some 2)
    · rw [written, String.toList_ofList]
      exact fun h => escapeChar_notMem_toYaml p ((Text.trimEnd_sublist _).mem h)
  rw [printed_append_lineFeed, (printed_eq_self_iff _).mpr (not_holdsSequence_of_not_mem hfree)]

end LexicalPath.Command
