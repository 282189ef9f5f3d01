import LexicalPath.Yaml.Value
import Mathlib.Data.List.Forall2

namespace LexicalPath.Yaml

open List (Forall₂)

namespace Graph

def IsText (g : Graph) (id : NodeId) (text : String) : Prop :=
  g.node id = ⟨.text, .scalar text⟩

def IsTextList (g : Graph) (id : NodeId) : Prop :=
  ∃ items texts, g.node id = ⟨.list, .sequence items⟩ ∧ Forall₂ g.IsText items texts

/-- The node stands for a null, a text or a list of texts. -/
inductive Stands (g : Graph) (id : NodeId) : Datum → Prop
  | null (h : g.node id = ⟨.null, .scalar "null"⟩) : Stands g id .null
  | text {text : String} (h : g.IsText id text) : Stands g id (.text text)
  | list {items : List NodeId} {texts : List String} (h : g.node id = ⟨.list, .sequence items⟩)
      (hitems : Forall₂ g.IsText items texts) : Stands g id (.list (texts.map .text))

/-- The node has a value of its own and is no collection. -/
structure Plain (g : Graph) (id : NodeId) (value : Value) : Prop where
  bound : id < g.nodes.size
  tag : Value.emptyOf? (g.tag id) = none
  value : g.plainValue id = .ok value

theorem lt_size_of_node_ne {g : Graph} {id : NodeId} (h : g.node id ≠ Node.empty) :
    id < g.nodes.size := by
  apply Decidable.byContradiction
  intro hbound
  exact h (by simp [node, hbound])

theorem IsText.plain {g : Graph} {id : NodeId} {text : String} (h : g.IsText id text) :
    g.Plain id (.scalar (.text text)) where
  bound := lt_size_of_node_ne (by rw [h]; simp [Node.empty])
  tag := by
    rw [tag, h]
    rfl
  value := by
    rw [IsText] at h
    unfold plainValue Graph.text
    simp [tag, content, h, Tag.isOfText, textValue]

theorem isText_unique (g : Graph) : Relator.RightUnique g.IsText := by
  intro id s t hs ht
  rw [IsText, hs] at ht
  cases ht
  rfl

theorem plain_null {g : Graph} {id : NodeId} (h : g.node id = ⟨.null, .scalar "null"⟩) :
    g.Plain id (.scalar .null) where
  bound := lt_size_of_node_ne (by rw [h]; simp [Node.empty])
  tag := by
    rw [tag, h]
    rfl
  value := by
    unfold plainValue Graph.text
    simp [tag, content, h, Tag.isOfText, textValue]

end Graph

theorem Graph.Plain.ne_of_node {g : Graph} {id id' : NodeId} {value : Value} {node : Node}
    (h : g.Plain id value) (hnode : g.node id' = node)
    (hcollection : (Value.emptyOf? node.tag).isSome) : id ≠ id' := by
  rintro rfl
  have htag := h.tag
  rw [Graph.tag, hnode] at htag
  simp [htag] at hcollection

theorem Graph.ne_of_list_of_mapping {g : Graph} {id id' : NodeId} {items : List NodeId}
    {entries : Entries} (h : g.node id = ⟨.list, .sequence items⟩)
    (h' : g.node id' = ⟨.mapping, .mapping entries⟩) : id ≠ id' := by
  rintro rfl
  rw [h] at h'
  cases h'

namespace Construction

/-- What is known of the values of nodes that are no collections is right. -/
structure Sound (g : Graph) (c : Construction) : Prop where
  graph : c.graph = g
  size : c.values.size = g.nodes.size
  plain : ∀ id value, g.Plain id value → c.value? id = none ∨ c.value? id = some value

/-- All that was known stays known. -/
def Keeps (c c' : Construction) : Prop :=
  ∀ id value, c.value? id = some value → c'.value? id = some value

theorem value?_setValue {c : Construction} {id : NodeId} (h : id < c.values.size) (value : Value)
    (id' : NodeId) :
    (c.setValue id value).value? id' = if id' = id then some value else c.value? id' := by
  unfold value? setValue
  simp only [Array.getD_eq_getD_getElem?, Array.getElem?_setIfInBounds]
  by_cases hid : id = id'
  · subst hid
    simp [h]
  · simp [hid, Ne.symm hid]

theorem keeps_setValue {c : Construction} {id : NodeId} (h : id < c.values.size) {value : Value}
    (hfresh : ∀ old, c.value? id = some old → old = value) : Keeps c (c.setValue id value) := by
  intro id' old hold
  rw [value?_setValue h]
  split
  case isTrue hid =>
    subst hid
    rw [hfresh old hold]
  case isFalse hid => exact hold

theorem Sound.setValue {g : Graph} {c : Construction} (hs : Sound g c) {id : NodeId}
    (hid : id < g.nodes.size) {value : Value} (h : ∀ v, g.Plain id v → v = value) :
    Sound g (c.setValue id value) where
  graph := hs.graph
  size := by
    rw [← hs.size]
    exact Array.size_setIfInBounds
  plain := by
    intro id' v hv
    rw [value?_setValue (hs.size ▸ hid)]
    split
    case isTrue heq =>
      subst heq
      exact .inr (congrArg some (h v hv).symm)
    case isFalse heq => exact hs.plain id' v hv

theorem visit_plain {g : Graph} {c : Construction} (hs : Sound g c) {id : NodeId} {value : Value}
    (h : g.Plain id value) :
    ∃ c', c.visit id = .ok c' ∧ Sound g c' ∧ c'.value? id = some value ∧ Keeps c c' ∧
      (∀ id', id' ≠ id → c'.value? id' = c.value? id') ∧
        c'.current = c.current ∧ c'.coming = c.coming := by
  unfold visit
  cases hvalue : c.value? id with
  | some old =>
      refine ⟨c, rfl, hs, ?_, fun _ _ hold => hold, fun _ _ => rfl, rfl, rfl⟩
      rcases hs.plain id value h with hnone | hsome
      · rw [hnone] at hvalue
        cases hvalue
      · exact hsome
  | none =>
      simp only [hs.graph, h.tag, h.value, Except.map]
      have hbound : id < c.values.size := hs.size ▸ h.bound
      refine ⟨_, rfl, hs.setValue h.bound ?_, ?_, keeps_setValue hbound ?_, ?_, rfl, rfl⟩
      · intro v hv
        exact Except.ok.inj (hv.value.symm.trans h.value)
      · rw [value?_setValue hbound, if_pos rfl]
      · intro old hold
        rw [hvalue] at hold
        cases hold
      · intro id' hne
        rw [value?_setValue hbound, if_neg hne]

theorem visitAll_texts {g : Graph} {c : Construction} (hs : Sound g c) {items : List NodeId}
    {texts : List String} (h : Forall₂ g.IsText items texts) :
    ∃ c', c.visitAll items = .ok c' ∧ Sound g c' ∧
      Forall₂ (fun item text => c'.value? item = some (.scalar (.text text))) items texts ∧
      Keeps c c' ∧ c'.current = c.current ∧ c'.coming = c.coming := by
  induction h generalizing c with
  | nil => exact ⟨c, rfl, hs, .nil, fun _ _ hold => hold, rfl, rfl⟩
  | cons htext _ ih =>
      obtain ⟨c₁, hvisit, hs₁, hvalue, hkeeps, -, hcurrent, hcoming⟩ := visit_plain hs htext.plain
      obtain ⟨c₂, hrest, hs₂, hvalues, hkeeps₂, hcurrent₂, hcoming₂⟩ := ih hs₁
      refine ⟨c₂, ?_, hs₂, .cons (hkeeps₂ _ _ hvalue) hvalues,
        fun id v hold => hkeeps₂ id v (hkeeps id v hold), hcurrent₂.trans hcurrent,
        hcoming₂.trans hcoming⟩
      rw [visitAll, hvisit]
      exact hrest

/-! ### Lists -/

/-- The list is filled, and its items are known. -/
def IsFilled (c : Construction) (id : NodeId) (items : List NodeId) (texts : List String) : Prop :=
  c.value? id = some (.list items) ∧
    Forall₂ (fun item text => c.value? item = some (.scalar (.text text))) items texts

theorem fill_list {g : Graph} {c : Construction} (hs : Sound g c) {id : NodeId}
    {items : List NodeId} {texts : List String} (h : g.node id = ⟨.list, .sequence items⟩)
    (hitems : Forall₂ g.IsText items texts) {held : List NodeId}
    (hheld : c.value? id = some (.list held)) :
    ∃ c', c.fill id = .ok c' ∧ Sound g c' ∧ IsFilled c' id items texts ∧
      (∀ id' v, id' ≠ id → c.value? id' = some v → c'.value? id' = some v) ∧
      c'.current = c.current ∧ c'.coming = c.coming := by
  have hbound : id < g.nodes.size := Graph.lt_size_of_node_ne (by rw [h]; simp [Node.empty])
  have hcontent : c.graph.content id = .sequence items := by
    rw [hs.graph, Graph.content, h]
  obtain ⟨c₁, hvisit, hs₁, hvalues, hkeeps, hcurrent, hcoming⟩ := visitAll_texts hs hitems
  have hset := value?_setValue (c := c₁) (hs₁.size ▸ hbound) (.list items)
  refine ⟨c₁.setValue id (.list items), ?_, hs₁.setValue hbound ?_, ⟨?_, ?_⟩, ?_, hcurrent,
    hcoming⟩
  · rw [fill, hheld, hcontent]
    simp only [hvisit, Except.map]
  · intro v hv
    exact absurd rfl (hv.ne_of_node h rfl)
  · rw [hset, if_pos rfl]
  · refine hitems.mp (fun item text htext hv => ?_) hvalues
    rw [hset, if_neg (htext.plain.ne_of_node h rfl)]
    exact hv
  · intro id' v hne hv
    rw [hset, if_neg hne]
    exact hkeeps id' v hv

/-- The node is a list of texts that was come upon. -/
def IsPending (g : Graph) (c : Construction) (id : NodeId) : Prop :=
  g.IsTextList id ∧ ∃ held, c.value? id = some (.list held)

theorem IsPending.mono {g : Graph} {c c' : Construction} (h : Keeps c c') {id : NodeId}
    (hid : IsPending g c id) : IsPending g c' id := by
  obtain ⟨hlist, held, hheld⟩ := hid
  exact ⟨hlist, held, h id _ hheld⟩

theorem IsFilled.mono {g : Graph} {c c' : Construction} {ids : List NodeId}
    (hkeeps : ∀ id v, id ∉ ids → c.value? id = some v → c'.value? id = some v)
    (hids : ∀ id ∈ ids, ∃ items, g.node id = ⟨.list, .sequence items⟩) {id : NodeId}
    (hid : id ∉ ids) {items : List NodeId} {texts : List String}
    (hitems : Forall₂ g.IsText items texts) (h : IsFilled c id items texts) :
    IsFilled c' id items texts := by
  refine ⟨hkeeps id _ hid h.1, hitems.mp (fun item text htext hv => ?_) h.2⟩
  apply hkeeps item _ _ hv
  intro hmem
  obtain ⟨items', hnode⟩ := hids item hmem
  exact htext.plain.ne_of_node hnode rfl rfl

theorem run_current {c c' : Construction} {id : NodeId} {rest : List NodeId}
    (hcurrent : c.current = id :: rest) (hfill : { c with current := rest }.fill id = .ok c')
    (fuel : Nat) : c.run (fuel + 1) = c'.run fuel := by
  rw [run, hcurrent]
  simp only [hfill]

theorem run_lists {g : Graph} {c : Construction} (hs : Sound g c) {fuel : Nat}
    (hfuel : c.current.length ≤ fuel) (hcurrent : ∀ id ∈ c.current, IsPending g c id)
    (hcoming : c.coming = []) :
    ∃ c', c.run fuel = .ok c' ∧ c'.values.size = g.nodes.size ∧
      (∀ id ∈ c.current, ∀ items texts, g.node id = ⟨.list, .sequence items⟩ →
        Forall₂ g.IsText items texts → IsFilled c' id items texts) ∧
      ∀ id v, id ∉ c.current → c.value? id = some v → c'.value? id = some v := by
  generalize hids : c.current = ids at *
  induction ids generalizing c fuel with
  | nil =>
      refine ⟨c, ?_, hs.size, by simp, fun _ _ _ hv => hv⟩
      cases fuel with
      | zero => rfl
      | succ fuel =>
          rw [run, hids, hcoming]
          rfl
  | cons id rest ih =>
      obtain ⟨fuel, rfl⟩ : ∃ n, fuel = n + 1 := ⟨fuel - 1, by simp at hfuel; omega⟩
      obtain ⟨⟨items, texts, hnode, hitems⟩, held, hheld⟩ := hcurrent id (by simp)
      have hs₀ : Sound g { c with current := rest } := ⟨hs.graph, hs.size, hs.plain⟩
      obtain ⟨c₁, hfill, hs₁, hfilled, hkeeps, hcurrent₁, hcoming₁⟩ :=
        fill_list hs₀ hnode hitems hheld
      have hpending : ∀ id' ∈ rest, IsPending g c₁ id' := by
        intro id' hid'
        obtain ⟨hlist, held', hheld'⟩ := hcurrent id' (List.mem_cons_of_mem id hid')
        refine ⟨hlist, ?_⟩
        by_cases heq : id' = id
        · subst heq
          exact ⟨items, hfilled.1⟩
        · exact ⟨held', hkeeps id' _ heq hheld'⟩
      obtain ⟨c₂, hrun, hsize, hfilled₂, hkeeps₂⟩ := ih hs₁ (hcoming₁.trans hcoming) hcurrent₁
        (by simpa using hfuel) hpending
      refine ⟨c₂, ?_, hsize, ?_, ?_⟩
      · rw [run_current hids hfill]
        exact hrun
      · intro id' hid' items' texts' hnode' hitems'
        by_cases hmem : id' ∈ rest
        · exact hfilled₂ id' hmem items' texts' hnode' hitems'
        · obtain rfl : id' = id := (List.mem_cons.mp hid').resolve_right hmem
          rw [hnode] at hnode'
          cases hnode'
          have htexts : texts' = texts := List.right_unique_forall₂' g.isText_unique hitems' hitems
          subst htexts
          refine IsFilled.mono hkeeps₂ (fun id hid => ?_) hmem hitems hfilled
          obtain ⟨⟨items, _, hnode, _⟩, _⟩ := hpending id hid
          exact ⟨items, hnode⟩
      · intro id' v hid' hv
        obtain ⟨hne, hrest⟩ := not_or.mp (mt List.mem_cons.mpr hid')
        exact hkeeps₂ id' v hrest (hkeeps id' v hne hv)

end Construction

end LexicalPath.Yaml
