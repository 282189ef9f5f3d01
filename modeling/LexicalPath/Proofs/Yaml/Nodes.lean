import LexicalPath.Proofs.Yaml.Tokens
import LexicalPath.Yaml.Composition

namespace LexicalPath.Yaml

def textNode (s : String) : Node :=
  ⟨.text, .scalar (readBackText s)⟩

/-- The nodes of a value, of which the first has the number `start`. -/
def fieldNodes (start : NodeId) : Field → List Node
  | .null => [⟨.null, .scalar "null"⟩]
  | .text s => [textNode s]
  | .texts items =>
      ⟨.list, .sequence (List.range' (start + 1) items.length)⟩ :: items.map textNode

/-- The nodes of entries, of which the first has the number `start`. -/
def entryNodes (start : NodeId) : List (String × Field) → List Node
  | [] => []
  | (key, field) :: more =>
      ⟨.text, .scalar key⟩ :: (fieldNodes (start + 1) field
        ++ entryNodes (start + 1 + (fieldNodes (start + 1) field).length) more)

def entryIds (start : NodeId) : List (String × Field) → Entries
  | [] => []
  | (_, field) :: more =>
      (start, start + 1) :: entryIds (start + 1 + (fieldNodes (start + 1) field).length) more

def flatNodes (fields : List (String × Field)) : List Node :=
  ⟨.mapping, .mapping (entryIds 1 fields)⟩ :: entryNodes 1 fields

namespace Source

/-- The tokens that are left, behind nodes without names. -/
def past (nodes : List Node) (depth : Nat) (tokens : List Token) : Source :=
  { tokens, fault := none, graph := ⟨nodes.toArray⟩, handles := standardHandles, depth }

variable {nodes : List Node} {depth : Nat} {rest : List Token}

theorem peek_past (t : Token) : (past nodes depth (t :: rest)).peek = .ok t := rfl

theorem skip_past (t : Token) : (past nodes depth (t :: rest)).skip = past nodes depth rest := rfl

theorem add_past (tokens : List Token) (node : Node) :
    (past nodes depth tokens).add none node =
      (nodes.length, past (nodes ++ [node]) depth tokens) := by
  simp [add, past, Graph.add]

theorem enter_past (hdepth : depth < deepest) (tokens : List Token) (node : Node) :
    (past nodes depth tokens).enter none node =
      .ok (nodes.length, past (nodes ++ [node]) (depth + 1) tokens) := by
  have hroom : (past nodes depth tokens).depth < deepest := hdepth
  rw [enter, if_pos hroom]
  exact congrArg Except.ok (add_past tokens node)

theorem modify_length_append (f : Node → Node) (nodes : List Node) (node : Node)
    (more : List Node) :
    (nodes ++ node :: more).modify nodes.length f = nodes ++ f node :: more := by
  induction nodes with
  | nil => rfl
  | cons first nodes ih => exact congrArg (first :: ·) ih

theorem leave_past (nodes : List Node) (tag : Tag) (content content' : Content)
    (more : List Node) (tokens : List Token) :
    (past (nodes ++ ⟨tag, content⟩ :: more) (depth + 1) tokens).leave nodes.length content' =
      past (nodes ++ ⟨tag, content'⟩ :: more) depth tokens := by
  simp [leave, past, Graph.setContent, modify_length_append]

theorem composeNode_scalar (fuel : Nat) (place : NodePlace) (text : String) (plain : Bool) :
    composeNode (fuel + 2) place (past nodes depth (.scalar text plain :: rest)) =
      .ok (nodes.length,
        past (nodes ++ [⟨scalarTag none plain text, .scalar text⟩]) depth rest) := by
  simp [composeNode, composeContent, peek_past, skip_past, add_past, properties, tagName?,
    checkAnchor, bind, Except.bind, pure, Except.pure]

theorem scalarTag_textToken (s : List Char) :
    scalarTag none (Style.of s = .plain) (String.ofList (readBack s)) = .text := by
  by_cases hstyle : Style.of s = .plain
  · obtain ⟨-, htag, -⟩ := Style.of_eq_plain hstyle
    simp [scalarTag, hstyle, readBack_of_style hstyle, htag]
  · simp [scalarTag, hstyle]

theorem composeNode_textToken (fuel : Nat) (place : NodePlace) (s : String) :
    composeNode (fuel + 2) place (past nodes depth (textToken s.toList :: rest)) =
      .ok (nodes.length, past (nodes ++ [textNode s]) depth rest) := by
  rw [textToken, composeNode_scalar, scalarTag_textToken]
  rfl

theorem composeUnless_of_not {ends : Token → Bool} {t : Token} (ht : ends t = false) (fuel : Nat)
    (place : NodePlace) :
    composeUnless (fuel + 1) ends place (past nodes depth (t :: rest)) =
      composeNode fuel place (past nodes depth (t :: rest)) := by
  simp [composeUnless, peek_past, ht, bind, Except.bind]

theorem length_itemTokens (items : List String) :
    (itemTokens items).length = 2 * items.length := by
  induction items with
  | nil => rfl
  | cons s more ih =>
      rw [itemTokens, List.flatMap_cons, List.length_append, ← itemTokens, ih]
      simp only [List.length_cons, List.length_nil]
      omega

theorem composeIndentless_items (nodes : List Node) (depth : Nat) (rest : List Token)
    (items : List String) {fuel : Nat} (hfuel : items.length + 4 ≤ fuel) {t : Token}
    (ht : t ≠ .blockEntry) :
    composeIndentless fuel (past nodes depth (itemTokens items ++ t :: rest)) =
      .ok (List.range' nodes.length items.length,
        past (nodes ++ items.map textNode) depth (t :: rest)) := by
  induction items generalizing nodes fuel with
  | nil =>
      obtain ⟨fuel, rfl⟩ : ∃ n, fuel = n + 1 := ⟨fuel - 1, by omega⟩
      simp [composeIndentless, itemTokens, peek_past, ht, bind, Except.bind, pure, Except.pure]
  | cons s more ih =>
      obtain ⟨fuel, rfl⟩ : ∃ n, fuel = n + 4 := ⟨fuel - 4, by omega⟩
      have hroom : more.length + 4 ≤ fuel + 3 := by
        rw [List.length_cons] at hfuel
        omega
      have hmore := ih (nodes ++ [textNode s]) hroom
      have htokens : itemTokens (s :: more) ++ t :: rest =
          .blockEntry :: textToken s.toList :: (itemTokens more ++ t :: rest) := rfl
      rw [htokens, composeIndentless]
      simp only [peek_past, skip_past, bind, Except.bind, if_true]
      rw [composeUnless_of_not rfl, composeNode_textToken]
      simp only [hmore, pure, Except.pure]
      simp [List.range'_succ]

theorem composeNode_noTexts (fuel : Nat) (hdepth : depth < deepest) (place : NodePlace) :
    composeNode (fuel + 3) place
        (past nodes depth (.flowSequenceStart :: .flowSequenceEnd :: rest)) =
      .ok (nodes.length, past (nodes ++ [⟨.list, .sequence []⟩]) depth rest) := by
  simp [composeNode, composeContent, composeFlowItems, peek_past, skip_past, properties, tagName?,
    checkAnchor, enter_past hdepth, leave_past, collectionTag, bind, Except.bind, pure, Except.pure]

theorem composeNode_texts (s : String) (more : List String) {fuel : Nat}
    (hfuel : more.length + 5 ≤ fuel) (hdepth : depth < deepest) {t : Token} (ht : t ≠ .blockEntry) :
    composeNode (fuel + 2) .blockValue
        (past nodes depth (itemTokens (s :: more) ++ t :: rest)) =
      .ok (nodes.length,
        past (nodes ++ fieldNodes nodes.length (.texts (s :: more))) depth (t :: rest)) := by
  have hitems := composeIndentless_items (nodes ++ [⟨.list, .sequence []⟩]) (depth + 1) rest
    (s :: more) hfuel ht
  have htokens : itemTokens (s :: more) ++ t :: rest =
      .blockEntry :: (textToken s.toList :: (itemTokens more ++ t :: rest)) := rfl
  rw [htokens] at hitems ⊢
  simp only [List.append_assoc, List.singleton_append] at hitems
  simp [composeNode, composeContent, peek_past, properties, tagName?, checkAnchor,
    enter_past hdepth, hitems, leave_past, collectionTag, fieldNodes, bind, Except.bind, pure,
    Except.pure]

theorem composeValue_field (nodes : List Node) (rest : List Token) (field : Field) {fuel : Nat}
    (hfuel : (fieldTokens field).length + 7 ≤ fuel) (hdepth : depth < deepest) {t : Token}
    (ht : t ≠ .blockEntry) :
    composeValue fuel (fun t => t = .key || t = .value || t = .blockEnd) .blockValue
        (past nodes depth (.value :: (fieldTokens field ++ t :: rest))) =
      .ok (nodes.length,
        past (nodes ++ fieldNodes nodes.length field) depth (t :: rest)) := by
  obtain ⟨fuel, rfl⟩ : ∃ n, fuel = n + 5 := ⟨fuel - 5, by omega⟩
  rw [composeValue]
  simp only [peek_past, skip_past, bind, Except.bind, if_true]
  cases field with
  | null =>
      exact (composeUnless_of_not rfl _ _).trans
        (composeNode_scalar (fuel + 1) .blockValue "null" true)
  | text s => exact (composeUnless_of_not rfl _ _).trans (composeNode_textToken (fuel + 1) _ s)
  | texts items =>
      cases items with
      | nil => exact (composeUnless_of_not rfl _ _).trans (composeNode_noTexts fuel hdepth _)
      | cons s more =>
          have hlength : (fieldTokens (.texts (s :: more))).length = 2 * (more.length + 1) :=
            length_itemTokens (s :: more)
          have hitems : more.length + 5 ≤ fuel + 1 := by omega
          exact (composeUnless_of_not rfl _ _).trans (composeNode_texts s more hitems hdepth ht)

theorem composeEntries_entryTokens (nodes : List Node) (rest : List Token)
    (fields : List (String × Field))
    (hkeys : ∀ entry ∈ fields, Tag.ofPlain entry.1.toList = .text) {fuel : Nat}
    (hfuel : (fields.flatMap entryTokens).length + 8 ≤ fuel) (hdepth : depth < deepest) :
    composeEntries fuel
        (past nodes depth (fields.flatMap entryTokens ++ .blockEnd :: rest)) =
      .ok (entryIds nodes.length fields,
        past (nodes ++ entryNodes nodes.length fields) depth rest) := by
  induction fields generalizing nodes fuel with
  | nil =>
      obtain ⟨fuel, rfl⟩ : ∃ n, fuel = n + 1 := ⟨fuel - 1, by omega⟩
      simp [composeEntries, peek_past, skip_past, entryIds, entryNodes, bind, Except.bind, pure,
        Except.pure]
  | cons entry more ih =>
      obtain ⟨key, field⟩ := entry
      obtain ⟨t, after, hafter, ht⟩ : ∃ t after,
          more.flatMap entryTokens ++ .blockEnd :: rest = t :: after ∧ t ≠ .blockEntry := by
        cases more with
        | nil => exact ⟨_, _, rfl, by simp⟩
        | cons next more => exact ⟨_, _, rfl, by simp⟩
      obtain ⟨fuel, rfl⟩ : ∃ n, fuel = n + 4 := ⟨fuel - 4, by omega⟩
      simp only [List.flatMap_cons, List.length_append, entryTokens, List.length_cons,
        List.length_nil] at hfuel
      have hkey : scalarTag none true key = .text := hkeys (key, field) List.mem_cons_self
      have hroom : (fieldTokens field).length + 7 ≤ fuel + 3 := by omega
      have hroom' : (more.flatMap entryTokens).length + 8 ≤ fuel + 3 := by omega
      have hvalue := composeValue_field (nodes ++ [⟨.text, .scalar key⟩]) after field hroom
        hdepth ht
      have hmore := ih (nodes ++ [⟨.text, .scalar key⟩] ++ fieldNodes (nodes.length + 1) field)
        (fun e he => hkeys e (List.mem_cons_of_mem _ he)) hroom'
      rw [hafter] at hmore
      have htokens : (((key, field) :: more).flatMap entryTokens) ++ .blockEnd :: rest =
          .key :: .scalar key true :: .value :: (fieldTokens field ++ t :: after) := by
        simp [entryTokens, ← hafter]
      rw [htokens, composeEntries]
      simp only [peek_past, skip_past, bind, Except.bind]
      rw [composeUnless_of_not rfl, composeNode_scalar, hkey]
      simp only [List.length_append, List.length_cons, List.length_nil] at hvalue hmore
      simp only [hvalue, hmore, pure, Except.pure]
      simp [entryIds, entryNodes]

end Source

theorem composeNode_flatTokens {fields : List (String × Field)}
    (hkeys : ∀ entry ∈ fields, Tag.ofPlain entry.1.toList = .text) {fuel : Nat}
    (hfuel : (fields.flatMap entryTokens).length + 8 ≤ fuel) :
    composeNode (fuel + 2) .block (Source.past [] 0 (flatTokens fields)) =
      .ok (0, Source.past (flatNodes fields) 0 [.streamEnd]) := by
  have hentries := Source.composeEntries_entryTokens [⟨.mapping, .mapping []⟩] [.streamEnd] fields
    hkeys hfuel (by decide : 1 < deepest)
  have htokens : flatTokens fields =
      .blockMappingStart :: (fields.flatMap entryTokens ++ [.blockEnd, .streamEnd]) := rfl
  have henter : (Source.past [] 0 (flatTokens fields)).enter none ⟨.mapping, .mapping []⟩ =
      .ok (0, Source.past [⟨.mapping, .mapping []⟩] 1 (flatTokens fields)) :=
    Source.enter_past (by decide) (flatTokens fields) ⟨.mapping, .mapping []⟩
  have hleave : (Source.past (⟨.mapping, .mapping []⟩ :: entryNodes 1 fields) 1
      [.streamEnd]).leave 0 (.mapping (entryIds 1 fields)) =
        Source.past (flatNodes fields) 0 [.streamEnd] :=
    Source.leave_past [] .mapping (.mapping []) (.mapping (entryIds 1 fields))
      (entryNodes 1 fields) [.streamEnd]
  rw [htokens] at henter ⊢
  simp only [List.length_cons, List.length_nil, Nat.zero_add, List.singleton_append] at hentries
  simp [composeNode, composeContent, Source.peek_past, Source.skip_past, Source.properties,
    Source.tagName?, Source.checkAnchor, collectionTag, henter, hentries, hleave, bind, Except.bind,
    pure, Except.pure]

theorem ofTokens?_flatTokens {fields : List (String × Field)}
    (hkeys : ∀ entry ∈ fields, Tag.ofPlain entry.1.toList = .text) :
    Graph.ofTokens? ⟨flatTokens fields, none⟩ = .ok (some (⟨(flatNodes fields).toArray⟩, 0)) := by
  have hroom : (fields.flatMap entryTokens).length + 8 ≤ 4 * (flatTokens fields).length + 6 := by
    simp only [flatTokens, List.length_cons, List.length_append]
    omega
  have hnode := composeNode_flatTokens hkeys hroom
  have hfirst : Source.firstDocument { tokens := flatTokens fields, fault := none } =
      .ok (some (0, Source.past (flatNodes fields) 0 [.streamEnd])) :=
    congrArg (Except.map some) hnode
  rw [Graph.ofTokens?, hfirst]
  rfl

end LexicalPath.Yaml
