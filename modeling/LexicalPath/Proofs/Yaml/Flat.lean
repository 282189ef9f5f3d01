import LexicalPath.Proofs.Yaml.Nodes
import LexicalPath.Proofs.Yaml.Values
import LexicalPath.Yaml.Reader

namespace LexicalPath.Yaml

open List (Forall₂)

def Field.readBack : Field → Datum
  | .null => .null
  | .text s => .text (readBackText s)
  | .texts items => .list ((items.map readBackText).map .text)

/-- A word that is read as a text. -/
structure IsKey (key : String) : Prop where
  word : Lexer.IsWord key.toList
  text : Tag.ofPlain key.toList = .text

theorem node_length_append (front : List Node) (node : Node) (rest : List Node) :
    (Graph.mk (front ++ node :: rest).toArray).node front.length = node := by
  simp [Graph.node]

theorem isText_items (front : List Node) (items : List String) (rest : List Node) :
    Forall₂ (Graph.mk (front ++ (items.map textNode ++ rest)).toArray).IsText
      (List.range' front.length items.length) (items.map readBackText) := by
  induction items generalizing front with
  | nil => exact .nil
  | cons s more ih =>
      have hmore := ih (front ++ [textNode s])
      simp only [List.length_append, List.length_singleton, List.append_assoc,
        List.singleton_append] at hmore
      exact .cons (node_length_append front (textNode s) _) hmore

theorem stands_fieldNodes (front : List Node) (field : Field) (rest : List Node) :
    (Graph.mk (front ++ (fieldNodes front.length field ++ rest)).toArray).Stands front.length
      field.readBack := by
  cases field with
  | null => exact .null (node_length_append front _ rest)
  | text s => exact .text (node_length_append front _ rest)
  | texts items =>
      have hitems := isText_items
        (front ++ [⟨.list, .sequence (List.range' (front.length + 1) items.length)⟩]) items rest
      simp only [List.length_append, List.length_singleton, List.append_assoc,
        List.singleton_append] at hitems
      exact .list (node_length_append front _ _) hitems

theorem stands_entryNodes (front : List Node) (fields : List (String × Field)) :
    Forall₂ (fun e f =>
        (Graph.mk (front ++ entryNodes front.length fields).toArray).IsText e.1 f.1 ∧
          (Graph.mk (front ++ entryNodes front.length fields).toArray).Stands e.2 f.2)
      (entryIds front.length fields) (fields.map fun (key, field) => (key, field.readBack)) := by
  induction fields generalizing front with
  | nil => exact .nil
  | cons entry more ih =>
      obtain ⟨key, field⟩ := entry
      have hfield := stands_fieldNodes (front ++ [⟨.text, .scalar key⟩]) field
        (entryNodes (front.length + 1 + (fieldNodes (front.length + 1) field).length) more)
      have hmore := ih (front ++ ⟨.text, .scalar key⟩ :: fieldNodes (front.length + 1) field)
      have hlength : front.length + ((fieldNodes (front.length + 1) field).length + 1) =
          front.length + 1 + (fieldNodes (front.length + 1) field).length := by omega
      simp only [List.length_append, List.length_cons, List.length_nil, List.append_assoc,
        List.cons_append, List.nil_append, Nat.zero_add, hlength] at hfield hmore
      exact .cons ⟨node_length_append front ⟨.text, .scalar key⟩ _, hfield⟩ hmore

theorem length_entryIds (start : NodeId) (fields : List (String × Field)) :
    (entryIds start fields).length = fields.length := by
  induction fields generalizing start with
  | nil => rfl
  | cons entry more ih => simp [entryIds, ih]

theorem length_le_entryNodes (start : NodeId) (fields : List (String × Field)) :
    fields.length ≤ (entryNodes start fields).length := by
  induction fields generalizing start with
  | nil => exact Nat.le_refl 0
  | cons entry more ih =>
      have hmore := ih (start + 1 + (fieldNodes (start + 1) entry.2).length)
      simp only [entryNodes, List.length_cons, List.length_append]
      omega

theorem read_writeFields (fields : List (String × Field)) (hne : fields ≠ [])
    (hwords : ∀ entry ∈ fields, IsKey entry.1) (hkeys : (fields.map (·.1)).Nodup) :
    ∃ d f, read (writeFields fields) = .ok d ∧ d.fields? = some f ∧
      ∀ entry ∈ fields, f entry.1 = some entry.2.readBack := by
  have hletters : ∀ entry ∈ fields, Lexer.IsWord entry.1.toList :=
    fun entry hentry => (hwords entry hentry).word
  have hallowed : (writeFields fields).toList.find? (!isAllowed ·) = none := by
    rw [List.find?_eq_none]
    intro c hc
    simp [(isSound_writeFields hletters hc).1]
  have hsize : (entryIds 1 fields).length < (flatNodes fields).toArray.size := by
    have hlength := length_le_entryNodes 1 fields
    rw [List.size_toArray, flatNodes, List.length_cons, length_entryIds]
    omega
  have hread : (fields.map fun (key, field) => (key, field.readBack)).map (·.1) =
      fields.map (·.1) := by
    rw [List.map_map]
    rfl
  obtain ⟨d, f, hgraph, hfields, hvalues⟩ := ofGraph_mapping (g := ⟨(flatNodes fields).toArray⟩)
    rfl (stands_entryNodes [⟨.mapping, .mapping (entryIds 1 fields)⟩] fields) (hread ▸ hkeys) hsize
  refine ⟨d, f, ?_, hfields, fun entry hentry => hvalues _ (List.mem_map_of_mem hentry)⟩
  rw [read, hallowed, ofText_writeFields hne hletters,
    ofTokens?_flatTokens fun entry hentry => (hwords entry hentry).text]
  simp only [hgraph, Except.mapError]

end LexicalPath.Yaml
