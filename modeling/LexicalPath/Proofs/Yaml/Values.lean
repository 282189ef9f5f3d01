import LexicalPath.Proofs.Yaml.Lists

/-!
The values of flat documents: mappings whose keys are texts and whose values are nulls, texts and
lists of texts (`ofGraph_mapping`).
-/

namespace LexicalPath.Yaml

open List (Forall₂)

namespace Construction

/-! ### What is come upon -/

/-- A list that was come upon is among those that are filled in the next round, and nothing was put
in yet. -/
def IsFresh (g : Graph) (c : Construction) : Prop :=
  ∀ id items, g.node id = ⟨.list, .sequence items⟩ →
    c.value? id = none ∨ c.value? id = some (.list []) ∧ id ∈ c.coming

/-- In the same round more became known, and at most `n` lists of texts are to be filled in the next
round that were not to be before. -/
structure Advance (g : Graph) (n : Nat) (c c' : Construction) : Prop where
  sound : Sound g c'
  fresh : IsFresh g c'
  keeps : Keeps c c'
  current : c'.current = c.current
  coming : ∃ more, c'.coming = more ++ c.coming ∧ more.length ≤ n ∧ ∀ id ∈ more, IsPending g c' id

theorem Advance.trans {g : Graph} {m n : Nat} {c₁ c₂ c₃ : Construction} (h : Advance g m c₁ c₂)
    (h' : Advance g n c₂ c₃) : Advance g (m + n) c₁ c₃ where
  sound := h'.sound
  fresh := h'.fresh
  keeps := fun id v hv => h'.keeps id v (h.keeps id v hv)
  current := h'.current.trans h.current
  coming := by
    obtain ⟨more, hmore, hlength, hlists⟩ := h.coming
    obtain ⟨more', hmore', hlength', hlists'⟩ := h'.coming
    refine ⟨more' ++ more, by rw [hmore', hmore, List.append_assoc], ?_, ?_⟩
    · rw [List.length_append]
      omega
    · intro id hid
      rcases List.mem_append.mp hid with hid | hid
      · exact hlists' id hid
      · exact (hlists id hid).mono h'.keeps

theorem Advance.mono {g : Graph} {m n : Nat} {c c' : Construction} (h : Advance g m c c')
    (hle : m ≤ n) : Advance g n c c' := by
  obtain ⟨more, hmore, hlength, hlists⟩ := h.coming
  exact ⟨h.sound, h.fresh, h.keeps, h.current, more, hmore, Nat.le_trans hlength hle, hlists⟩

/-- What a node stands for is known, or it is a list to be filled in the next round. -/
def IsMet (g : Graph) (c : Construction) (id : NodeId) : Prop :=
  (∀ value, g.Plain id value → c.value? id = some value) ∧
    ∀ items, g.node id = ⟨.list, .sequence items⟩ →
      c.value? id = some (.list []) ∧ id ∈ c.coming

theorem IsMet.mono {g : Graph} {n : Nat} {c c' : Construction} (h : Advance g n c c')
    {id : NodeId} (hid : IsMet g c id) : IsMet g c' id := by
  refine ⟨fun value hvalue => h.keeps id value (hid.1 value hvalue), fun items hitems => ?_⟩
  obtain ⟨hheld, hmem⟩ := hid.2 items hitems
  obtain ⟨more, hmore, -⟩ := h.coming
  exact ⟨h.keeps id _ hheld, hmore ▸ List.mem_append_right more hmem⟩

theorem advance_plain {g : Graph} {c : Construction} (hs : Sound g c) (hfresh : IsFresh g c)
    {id : NodeId} {value : Value} (h : g.Plain id value) :
    ∃ c', c.visit id = .ok c' ∧ Advance g 0 c c' ∧ c'.value? id = some value := by
  obtain ⟨c', hvisit, hs', hvalue, hkeeps, hothers, hcurrent, hcoming⟩ := visit_plain hs h
  refine ⟨c', hvisit, ⟨hs', ?_, hkeeps, hcurrent, [], hcoming, Nat.le_refl 0, by simp⟩, hvalue⟩
  intro id' items hitems
  rw [hothers id' (h.ne_of_node hitems rfl).symm, hcoming]
  exact hfresh id' items hitems

theorem advance_list {g : Graph} {c : Construction} (hs : Sound g c) (hfresh : IsFresh g c)
    {id : NodeId} (h : g.IsTextList id) :
    ∃ c', c.visit id = .ok c' ∧ Advance g 1 c c' ∧ IsMet g c' id := by
  obtain ⟨items, texts, hnode, hitems⟩ := h
  have hbound : id < g.nodes.size := Graph.lt_size_of_node_ne (by rw [hnode]; simp [Node.empty])
  have htag : Value.emptyOf? (g.tag id) = some (.list []) := by
    rw [Graph.tag, hnode]
    rfl
  have hmet {c' : Construction} (hvalue : c'.value? id = some (.list [])) (hmem : id ∈ c'.coming) :
      IsMet g c' id :=
    ⟨fun value hvalue => absurd rfl (hvalue.ne_of_node hnode rfl), fun _ _ => ⟨hvalue, hmem⟩⟩
  unfold visit
  cases hvalue : c.value? id with
  | some old =>
      refine ⟨c, rfl, ?_, ?_⟩
      · exact ⟨hs, hfresh, fun _ _ hv => hv, rfl, [], rfl, Nat.zero_le 1, by simp⟩
      · rcases hfresh id items hnode with hnone | ⟨hheld, hmem⟩
        · rw [hnone] at hvalue
          cases hvalue
        · exact hmet hheld hmem
  | none =>
      have hset := value?_setValue (c := c) (hs.size ▸ hbound) (.list [])
      have hs' : Sound g (c.setValue id (.list [])) :=
        hs.setValue hbound fun value hvalue => absurd rfl (hvalue.ne_of_node hnode rfl)
      have hkeeps : Keeps c (c.setValue id (.list [])) := by
        apply keeps_setValue (hs.size ▸ hbound)
        intro old hold
        rw [hvalue] at hold
        cases hold
      have hnew : (c.setValue id (.list [])).value? id = some (.list []) := by
        rw [hset, if_pos rfl]
      simp only [hs.graph, htag]
      refine ⟨_, rfl, ⟨⟨hs'.graph, hs'.size, hs'.plain⟩, ?_, hkeeps, rfl, [id], rfl, Nat.le_refl 1,
        ?_⟩, hmet hnew List.mem_cons_self⟩
      · intro id' items' hnode'
        by_cases heq : id' = id
        · subst heq
          exact .inr ⟨hnew, List.mem_cons_self⟩
        · rcases hfresh id' items' hnode' with hnone | ⟨hheld, hmem⟩
          · exact .inl ((hset id').trans ((if_neg heq).trans hnone))
          · exact .inr ⟨hkeeps id' _ hheld, List.mem_cons_of_mem id hmem⟩
      · intro id' hid'
        rw [List.mem_singleton.mp hid']
        exact ⟨⟨items, texts, hnode, hitems⟩, [], hnew⟩

theorem isMet_of_plain {g : Graph} {c : Construction} {id : NodeId} {value : Value}
    (h : g.Plain id value) (hvalue : c.value? id = some value) : IsMet g c id := by
  refine ⟨fun value' h' => ?_, fun items hnode => absurd rfl (h.ne_of_node hnode rfl)⟩
  rw [hvalue, Except.ok.inj (h.value.symm.trans h'.value)]

theorem advance_stands {g : Graph} {c : Construction} (hs : Sound g c) (hfresh : IsFresh g c)
    {id : NodeId} {d : Datum} (h : g.Stands id d) :
    ∃ c', c.visit id = .ok c' ∧ Advance g 1 c c' ∧ IsMet g c' id := by
  have hplain {value : Value} (h : g.Plain id value) :
      ∃ c', c.visit id = .ok c' ∧ Advance g 1 c c' ∧ IsMet g c' id := by
    obtain ⟨c', hvisit, hadvance, hvalue⟩ := advance_plain hs hfresh h
    exact ⟨c', hvisit, hadvance.mono (Nat.zero_le 1), isMet_of_plain h hvalue⟩
  cases h with
  | null h => exact hplain (Graph.plain_null h)
  | text h => exact hplain h.plain
  | list h hitems => exact advance_list hs hfresh ⟨_, _, h, hitems⟩

theorem advance_entries {g : Graph} {c : Construction} (hs : Sound g c) (hfresh : IsFresh g c)
    {entries : Entries} {fields : List (String × Datum)}
    (h : Forall₂ (fun e f => g.IsText e.1 f.1 ∧ g.Stands e.2 f.2) entries fields) :
    ∃ c', c.visitEntries entries = .ok c' ∧ Advance g entries.length c c' ∧
      Forall₂ (fun e f => c'.value? e.1 = some (.scalar (.text f.1)) ∧ IsMet g c' e.2)
        entries fields := by
  induction h generalizing c with
  | nil =>
      refine ⟨c, rfl, ?_, .nil⟩
      exact ⟨hs, hfresh, fun _ _ hv => hv, rfl, [], rfl, Nat.le_refl 0, by simp⟩
  | @cons e f entries fields hentry _ ih =>
      obtain ⟨key, value⟩ := e
      obtain ⟨hkey, hvalue⟩ := hentry
      obtain ⟨c₁, hvisit₁, hadvance₁, hknown⟩ := advance_plain hs hfresh hkey.plain
      obtain ⟨c₂, hvisit₂, hadvance₂, hmet⟩ :=
        advance_stands hadvance₁.sound hadvance₁.fresh hvalue
      obtain ⟨c₃, hvisit₃, hadvance₃, hall⟩ := ih hadvance₂.sound hadvance₂.fresh
      have hvisitKey : c.visitKey key = .ok c₁ := by
        rw [visitKey, hvisit₁]
        simp [hknown, Value.isKey]
      refine ⟨c₃, ?_, ?_, .cons ⟨?_, hmet.mono hadvance₃⟩ hall⟩
      · simp only [visitEntries, hvisitKey, hvisit₂, hvisit₃]
      · have hadvance := (hadvance₁.trans hadvance₂).trans hadvance₃
        exact hadvance.mono (by simp; omega)
      · exact hadvance₃.keeps _ _ (hadvance₂.keeps _ _ hknown)

/-! ### Keys -/

theorem insertEntry_of_fresh {c : Construction} {key : NodeId} (value : NodeId) {done : Entries}
    (h : ∀ entry ∈ done, c.sameKey entry.1 key = false) :
    c.insertEntry key value done = done ++ [(key, value)] := by
  induction done with
  | nil => rfl
  | cons entry rest ih =>
      have hrest := ih fun e he => h e (List.mem_cons_of_mem entry he)
      rw [insertEntry, if_neg (by simp [h entry]), hrest]
      rfl

theorem distinctEntries_of_pairwise {c : Construction} {entries : Entries}
    (h : entries.Pairwise fun a b => c.sameKey a.1 b.1 = false) :
    c.distinctEntries entries = entries := by
  -- The entries that were put in stand in front of those that are left.
  have hfold (done : Entries) (hdone : (done ++ entries).Pairwise fun a b =>
      c.sameKey a.1 b.1 = false) :
      entries.foldl (fun done entry => c.insertEntry entry.1 entry.2 done) done =
        done ++ entries := by
    clear h
    induction entries generalizing done with
    | nil => simp
    | cons entry rest ih =>
        have hfresh : ∀ e ∈ done, c.sameKey e.1 entry.1 = false := fun e he =>
          (List.pairwise_append.mp hdone).2.2 e he entry List.mem_cons_self
        rw [List.append_cons] at hdone
        have hrest := ih _ hdone
        rw [List.append_assoc, List.singleton_append] at hrest
        rw [List.foldl_cons]
        simp only [insertEntry_of_fresh _ hfresh]
        exact hrest
  exact hfold [] h

theorem sameKey_of_ne {c : Construction} {a b : NodeId} {s t : String} (hne : s ≠ t)
    (ha : c.value? a = some (.scalar (.text s))) (hb : c.value? b = some (.scalar (.text t))) :
    c.sameKey a b = false := by
  have hids : a ≠ b := by
    rintro rfl
    rw [ha] at hb
    cases hb
    exact hne rfl
  simp [sameKey, hids, ha, hb, Value.sameKey, Datum.sameKey, hne]

theorem exists_mem_of_forall₂ {α β : Type} {R : α → β → Prop} {l : List α} {m : List β}
    (h : Forall₂ R l m) {a : α} (ha : a ∈ l) : ∃ b ∈ m, R a b := by
  induction h with
  | nil => cases ha
  | @cons first b l m hfirst _ ih =>
      rcases List.mem_cons.mp ha with rfl | ha
      · exact ⟨b, List.mem_cons_self, hfirst⟩
      · obtain ⟨b', hb', hR⟩ := ih ha
        exact ⟨b', List.mem_cons_of_mem b hb', hR⟩

theorem pairwise_keys {c : Construction} {entries : Entries} {fields : List (String × Datum)}
    (h : Forall₂ (fun e f => c.value? e.1 = some (.scalar (.text f.1))) entries fields)
    (hkeys : (fields.map (·.1)).Nodup) :
    entries.Pairwise fun a b => c.sameKey a.1 b.1 = false := by
  induction h with
  | nil => exact .nil
  | @cons e f entries fields hentry hrest ih =>
      obtain ⟨hfresh, hkeys⟩ := List.nodup_cons.mp hkeys
      refine List.pairwise_cons.mpr ⟨fun e' he' => ?_, ih hkeys⟩
      obtain ⟨f', hf', hentry'⟩ := exists_mem_of_forall₂ hrest he'
      apply sameKey_of_ne _ hentry hentry'
      intro heq
      have hmem : f'.1 ∈ fields.map (·.1) := List.mem_map_of_mem hf'
      rw [← heq] at hmem
      exact hfresh hmem

/-! ### Mappings -/

theorem plainKeys_eq_self {g : Graph} {entries : Entries}
    (h : ∀ entry ∈ entries, g.tag entry.1 = .text) : g.plainKeys entries = g := by
  unfold Graph.plainKeys
  induction entries with
  | nil => rfl
  | cons entry rest ih =>
      have hentry : g.tag entry.1 ≠ .value := by
        rw [h entry List.mem_cons_self]
        decide
      rw [List.foldl_cons, if_neg hentry]
      exact ih fun e he => h e (List.mem_cons_of_mem entry he)

theorem flatten_eq_self {g : Graph} {id : NodeId}
    (h : ∀ entry ∈ g.entries id, g.tag entry.1 = .text) (fuel : Nat) :
    g.flatten fuel id [] = .ok g := by
  have hmerge : (g.entries id).find? g.isMerge = none := by
    rw [List.find?_eq_none]
    intro entry hentry
    simp [Graph.isMerge, h entry hentry]
  cases fuel <;> simp [Graph.flatten, hmerge, plainKeys_eq_self h]

/-- The entries with a text for a key and what that stands for are known, apart from what the lists
to be filled in the next round hold. -/
def IsEntered (g : Graph) (c : Construction) (entries : Entries) (fields : List (String × Datum)) :
    Prop :=
  Forall₂ (fun e f => c.value? e.1 = some (.scalar (.text f.1)) ∧ IsMet g c e.2) entries fields

theorem fill_mapping {g : Graph} {c : Construction} (hs : Sound g c) (hfresh : IsFresh g c)
    {id : NodeId} {entries : Entries} {fields : List (String × Datum)}
    (hnode : g.node id = ⟨.mapping, .mapping entries⟩)
    (hheld : c.value? id = some (.mapping []))
    (h : Forall₂ (fun e f => g.IsText e.1 f.1 ∧ g.Stands e.2 f.2) entries fields)
    (hkeys : (fields.map (·.1)).Nodup) :
    ∃ c' more, c.fill id = .ok c' ∧ Sound g c' ∧ c'.value? id = some (.mapping entries) ∧
      IsEntered g c' entries fields ∧ c'.current = c.current ∧ c'.coming = more ++ c.coming ∧
        more.length ≤ entries.length ∧ ∀ id' ∈ more, IsPending g c' id' := by
  obtain ⟨c₁, hvisit, hadvance, hentered⟩ := advance_entries hs hfresh h
  obtain ⟨more, hmore, hlength, hlists⟩ := hadvance.coming
  have hentries : g.entries id = entries := by
    rw [Graph.entries, Graph.content, hnode]
  have htags : ∀ entry ∈ g.entries id, g.tag entry.1 = .text := by
    rw [hentries]
    intro entry hentry
    obtain ⟨f, -, htext, -⟩ := exists_mem_of_forall₂ h hentry
    rw [Graph.tag, htext]
  have hdistinct : c₁.distinctEntries entries = entries :=
    distinctEntries_of_pairwise (pairwise_keys (hentered.imp fun _ _ he => he.1) hkeys)
  have hfill : c.fillEntries id = .ok (c₁, entries) := by
    have hcontent : c.graph.content id = .mapping entries := by
      rw [hs.graph, Graph.content, hnode]
    have hgraph : { c with graph := g } = c := by rw [← hs.graph]
    rw [fillEntries, hcontent]
    simp only [hs.graph, flatten_eq_self htags, hgraph, hentries, hvisit, hdistinct]
  have hbound : id < g.nodes.size := Graph.lt_size_of_node_ne (by rw [hnode]; simp [Node.empty])
  have hplain {id' : NodeId} {v : Value} (hv : g.Plain id' v) : id' ≠ id :=
    hv.ne_of_node hnode rfl
  have hlist {id' : NodeId} {items : List NodeId}
      (hitems : g.node id' = ⟨.list, .sequence items⟩) : id' ≠ id :=
    Graph.ne_of_list_of_mapping hitems hnode
  have hset := value?_setValue (c := c₁) (hadvance.sound.size ▸ hbound) (.mapping entries)
  refine ⟨c₁.setValue id (.mapping entries), more, ?_, hadvance.sound.setValue hbound ?_, ?_, ?_,
    hadvance.current, hmore, hlength, ?_⟩
  · rw [fill, hheld]
    simp only [hfill, Except.map]
  · exact fun v hv => absurd rfl (hplain hv)
  · rw [hset, if_pos rfl]
  · refine h.mp (fun e f hef hknown => ⟨?_, fun v hv => ?_, fun items hitems => ?_⟩) hentered
    · rw [hset, if_neg (hplain hef.1.plain)]
      exact hknown.1
    · rw [hset, if_neg (hplain hv)]
      exact hknown.2.1 v hv
    · rw [hset, if_neg (hlist hitems)]
      exact hknown.2.2 items hitems
  · intro id' hid'
    obtain ⟨⟨items, texts, hitems, htexts⟩, held, hheld⟩ := hlists id' hid'
    refine ⟨⟨items, texts, hitems, htexts⟩, held, ?_⟩
    rw [hset, if_neg (hlist hitems)]
    exact hheld

/-- The node shows what it stands for. -/
inductive Shows (c : Construction) (id : NodeId) : Datum → Prop
  | null (h : c.value? id = some (.scalar .null)) : Shows c id .null
  | text {text : String} (h : c.value? id = some (.scalar (.text text))) : Shows c id (.text text)
  | list {items : List NodeId} {texts : List String} (h : IsFilled c id items texts) :
      Shows c id (.list (texts.map .text))

theorem run_next {c : Construction} (hcurrent : c.current = []) {fuel : Nat}
    (hfuel : c.coming.length ≤ fuel) :
    c.run fuel = { c with current := c.coming.reverse, coming := [] }.run fuel := by
  cases hcoming : c.coming.reverse with
  | nil =>
      have hself : { c with current := [], coming := [] } = c := by
        cases c
        simp_all
      rw [hself]
  | cons id rest =>
      have hlength : c.coming.length = rest.length + 1 := by
        rw [← List.length_reverse, hcoming, List.length_cons]
      obtain ⟨fuel, rfl⟩ : ∃ n, fuel = n + 1 := ⟨fuel - 1, by omega⟩
      rw [run, run, hcurrent, hcoming]

theorem value?_start (g : Graph) (id : NodeId) : (start g).value? id = none := by
  simp only [start, value?, Array.getD_eq_getD_getElem?, Array.getElem?_replicate]
  split <;> rfl

theorem run_root {g : Graph} {entries : Entries} {fields : List (String × Datum)}
    (hnode : g.node 0 = ⟨.mapping, .mapping entries⟩)
    (h : Forall₂ (fun e f => g.IsText e.1 f.1 ∧ g.Stands e.2 f.2) entries fields)
    (hkeys : (fields.map (·.1)).Nodup) :
    ∃ c c', (start g).visit 0 = .ok c ∧ (∀ fuel, c.run (fuel + 1) = c'.run fuel) ∧ Sound g c' ∧
      c'.value? 0 = some (.mapping entries) ∧ IsEntered g c' entries fields ∧ c'.current = [] ∧
        c'.coming.length ≤ entries.length ∧ ∀ id ∈ c'.coming, IsPending g c' id := by
  have hbound : 0 < g.nodes.size := Graph.lt_size_of_node_ne (by rw [hnode]; simp [Node.empty])
  have htag : Value.emptyOf? ((start g).graph.tag 0) = some (.mapping []) := by
    change Value.emptyOf? (g.tag 0) = _
    rw [Graph.tag, hnode]
    rfl
  have hsize : (start g).values.size = g.nodes.size := Array.size_replicate
  have hstart : Sound g (start g) := ⟨rfl, hsize, fun id _ _ => .inl (value?_start g id)⟩
  have hset := value?_setValue (c := start g) (hsize ▸ hbound) (.mapping [])
  have hs : Sound g ((start g).setValue 0 (.mapping [])) :=
    hstart.setValue hbound fun v hv => absurd rfl (hv.ne_of_node hnode rfl)
  have hfresh : IsFresh g ((start g).setValue 0 (.mapping [])) := by
    intro id items hitems
    have hne : id ≠ 0 := Graph.ne_of_list_of_mapping hitems hnode
    exact .inl ((hset id).trans ((if_neg hne).trans (value?_start g id)))
  obtain ⟨c', more, hfill, hs', hvalue, hentered, hcurrent, hcoming, hlength, hpending⟩ :=
    fill_mapping hs hfresh hnode ((hset 0).trans (if_pos rfl)) h hkeys
  have hmore : c'.coming = more := hcoming.trans (List.append_nil more)
  refine ⟨{ (start g).setValue 0 (.mapping []) with coming := [0] }, c', ?_, ?_, hs', hvalue,
    hentered, hcurrent, hmore ▸ hlength, hmore ▸ hpending⟩
  · rw [visit, value?_start, htag]
    rfl
  · intro fuel
    rw [run_next rfl (Nat.succ_pos fuel)]
    exact run_current rfl hfill fuel

theorem shows_of_isMet {g : Graph} {c c' : Construction} {ids : List NodeId}
    (hids : ∀ id ∈ ids, g.IsTextList id) (hcoming : ∀ id ∈ c.coming, id ∈ ids)
    (hlists : ∀ id ∈ ids, ∀ items texts, g.node id = ⟨.list, .sequence items⟩ →
      Forall₂ g.IsText items texts → IsFilled c' id items texts)
    (hkeeps : ∀ id v, id ∉ ids → c.value? id = some v → c'.value? id = some v)
    {id : NodeId} {d : Datum} (hid : g.Stands id d) (hmet : IsMet g c id) : Shows c' id d := by
  have hplain {value : Value} (h : g.Plain id value) : c'.value? id = some value := by
    apply hkeeps id value _ (hmet.1 value h)
    intro hmem
    obtain ⟨items, -, hnode, -⟩ := hids id hmem
    exact h.ne_of_node hnode rfl rfl
  cases hid with
  | null h => exact .null (hplain (Graph.plain_null h))
  | text h => exact .text (hplain h.plain)
  | list h hitems =>
      obtain ⟨-, hmem⟩ := hmet.2 _ h
      exact .list (hlists id (hcoming id hmem) _ _ h hitems)

theorem run_mapping {g : Graph} {entries : Entries} {fields : List (String × Datum)}
    (hnode : g.node 0 = ⟨.mapping, .mapping entries⟩)
    (h : Forall₂ (fun e f => g.IsText e.1 f.1 ∧ g.Stands e.2 f.2) entries fields)
    (hkeys : (fields.map (·.1)).Nodup) (hsize : entries.length < g.nodes.size) :
    ∃ c c', (start g).visit 0 = .ok c ∧ c.run g.nodes.size = .ok c' ∧
      c'.values.size = g.nodes.size ∧ c'.value? 0 = some (.mapping entries) ∧
      Forall₂ (fun e f => c'.value? e.1 = some (.scalar (.text f.1)) ∧ Shows c' e.2 f.2)
        entries fields := by
  obtain ⟨c₁, c₂, hvisit, hroot, hs, hvalue, hentered, hcurrent, hlength, hpending⟩ :=
    run_root hnode h hkeys
  obtain ⟨fuel, hfuel⟩ : ∃ n, g.nodes.size = n + 1 := ⟨g.nodes.size - 1, by omega⟩
  have hs' : Sound g { c₂ with current := c₂.coming.reverse, coming := [] } :=
    ⟨hs.graph, hs.size, hs.plain⟩
  have hrounds : c₂.coming.reverse.length ≤ fuel := by
    rw [List.length_reverse]
    omega
  obtain ⟨c₃, hrun, hsize₃, hlists, hkeeps⟩ :=
    run_lists hs' hrounds (fun id hid => hpending id (List.mem_reverse.mp hid)) rfl
  have hids : ∀ id ∈ c₂.coming.reverse, g.IsTextList id :=
    fun id hid => (hpending id (List.mem_reverse.mp hid)).1
  have hother {id : NodeId} (hid : ∀ items, g.node id ≠ ⟨.list, .sequence items⟩) (v : Value) :
      c₂.value? id = some v → c₃.value? id = some v := by
    apply hkeeps id v
    intro hmem
    obtain ⟨items, -, hlist, -⟩ := hids id hmem
    exact hid items hlist
  refine ⟨c₁, c₃, hvisit, ?_, hsize₃, ?_, ?_⟩
  · rw [hfuel, hroot, run_next hcurrent (by omega), hrun]
  · exact hother (by simp [hnode]) _ hvalue
  · refine h.mp (fun e f hef hknown => ⟨?_, ?_⟩) hentered
    · apply hother _ _ hknown.1
      rw [hef.1]
      simp
    · exact shows_of_isMet hids (fun id hid => List.mem_reverse.mpr hid) hlists hkeeps hef.2
        hknown.2

end Construction

namespace Document

theorem value_eq {c : Construction} {id : NodeId} {v : Value} (h : c.value? id = some v)
    (root : NodeId) : (Document.mk c.values root).value id = v :=
  congrArg (fun v : Option Value => v.getD (.scalar .null)) h

theorem datum_of_shows {c : Construction} (hsize : 0 < c.values.size) {id : NodeId} {d : Datum}
    (h : c.Shows id d) (root : NodeId) : (Document.mk c.values root).datum id = d := by
  unfold datum
  cases h with
  | null h => rw [datumWithin, value_eq h]
  | text h => rw [datumWithin, value_eq h]
  | list h =>
      obtain ⟨n, hn⟩ : ∃ n, c.values.size = n + 1 := ⟨c.values.size - 1, by omega⟩
      have hitem {item : NodeId} {text : String} (within : List NodeId)
          (hitem : c.value? item = some (.scalar (.text text))) :
          (Document.mk c.values root).datumWithin within (n + 1) item = .text text := by
        rw [datumWithin, value_eq hitem]
      have hitems := List.forall₂_map_left_iff.mpr
        (List.forall₂_map_right_iff.mpr (h.2.imp fun _ _ h => hitem [id] h))
      rw [List.forall₂_eq_eq_eq] at hitems
      rw [datumWithin, value_eq h.1, hn]
      simp [hitems]

theorem find?_entries {d : Document} {entries : Entries} {fields : List (String × Datum)}
    (h : Forall₂ (fun e f => d.value e.1 = .scalar (.text f.1) ∧ d.datum e.2 = f.2) entries fields)
    (hkeys : (fields.map (·.1)).Nodup) {field : String × Datum} (hfield : field ∈ fields) :
    (entries.find? fun e => d.isText e.1 field.1).map (fun e => d.datum e.2) = some field.2 := by
  induction h with
  | nil => cases hfield
  | @cons e f entries fields hentry _ ih =>
      obtain ⟨hfresh, hkeys⟩ := List.nodup_cons.mp hkeys
      have htext : d.isText e.1 field.1 = decide (f.1 = field.1) := by
        simp [isText, hentry.1]
      rcases List.mem_cons.mp hfield with rfl | hfield
      · simp [htext, hentry.2]
      · have hne : f.1 ≠ field.1 := by
          intro heq
          have hmem : field.1 ∈ fields.map (·.1) := List.mem_map_of_mem hfield
          rw [← heq] at hmem
          exact hfresh hmem
        rw [List.find?_cons_of_neg (by simp [htext, hne])]
        exact ih hkeys hfield

end Document

/-- A mapping with different texts for keys whose values are nulls, texts and lists of texts gives
those values by their keys. -/
theorem ofGraph_mapping {g : Graph} {entries : Entries} {fields : List (String × Datum)}
    (hnode : g.node 0 = ⟨.mapping, .mapping entries⟩)
    (h : Forall₂ (fun e f => g.IsText e.1 f.1 ∧ g.Stands e.2 f.2) entries fields)
    (hkeys : (fields.map (·.1)).Nodup) (hsize : entries.length < g.nodes.size) :
    ∃ d f, Document.ofGraph g 0 = .ok d ∧ d.fields? = some f ∧
      ∀ field ∈ fields, f field.1 = some field.2 := by
  obtain ⟨c, c', hvisit, hrun, hsize', hroot, hfields⟩ :=
    Construction.run_mapping hnode h hkeys hsize
  have hshown : Forall₂ (fun e f => (Document.mk c'.values 0).value e.1 = .scalar (.text f.1) ∧
      (Document.mk c'.values 0).datum e.2 = f.2) entries fields :=
    hfields.imp fun e f hef =>
      ⟨Document.value_eq hef.1 0, Document.datum_of_shows (by omega) hef.2 0⟩
  let d : Document := ⟨c'.values, 0⟩
  refine ⟨d, fun key => (entries.find? fun e => d.isText e.1 key).map fun e => d.datum e.2, ?_, ?_,
    fun field hfield => Document.find?_entries hshown hkeys hfield⟩
  · rw [Document.ofGraph, hvisit]
    exact congrArg (Except.map fun c => Document.mk c.values 0) hrun
  · rw [Document.fields?, Document.value_eq hroot 0]

end LexicalPath.Yaml
