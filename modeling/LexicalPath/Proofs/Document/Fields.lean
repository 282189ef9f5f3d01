import LexicalPath.Document

namespace LexicalPath.Document

/-- The value is null, false, a zero, or something empty. -/
inductive IsNothing : Datum → Prop where
  | null : IsNothing .null
  | false : IsNothing (.bool false)
  | int : IsNothing (.int 0)
  | float {x : Float} (hx : (x == 0.0) = true) : IsNothing (.float x)
  | text : IsNothing (.text "")
  | bytes : IsNothing (.bytes [])
  | list : IsNothing (.list [])
  | set : IsNothing (.set [])
  | mapping : IsNothing (.mapping [])

/-- The kind is left out, or is that of a path. -/
inductive GivesKind : Option Datum → Prop where
  | absent : GivesKind none
  | path : GivesKind (some (.text pathKind))

/-- The root is left out or null, or is a text. -/
inductive GivesRoot : Option Datum → Option String → Prop where
  | absent : GivesRoot none none
  | null : GivesRoot (some .null) none
  | text (s : String) : GivesRoot (some (.text s)) (some s)

/-- The names are left out or nothing at all, or are a list of texts. -/
inductive GivesNames : Option Datum → List String → Prop where
  | absent : GivesNames none []
  | nothing {value : Datum} (h : IsNothing value) : GivesNames (some value) []
  | texts (names : List String) : GivesNames (some (.list (names.map .text))) names

/-- Each field of a document gives its part of a path. -/
structure Gives (fields : Fields) (p : Path) : Prop where
  kind : GivesKind (fields "kind")
  root : GivesRoot (fields "root") p.root
  names : GivesNames (fields "names") p.names

/-- The error names the first field of a document that gives nothing, with its value. -/
inductive Fault (fields : Fields) : ShapeError → Prop where
  | kind {value : Datum} (hvalue : fields "kind" = some value) (h : ¬ GivesKind (some value)) :
      Fault fields (.wrongKind value)
  | root {value : Datum} (hkind : GivesKind (fields "kind")) (hvalue : fields "root" = some value)
      (h : ∀ root, ¬ GivesRoot (some value) root) : Fault fields (.wrongRoot value)
  | names {value : Datum} {root : Option String} (hkind : GivesKind (fields "kind"))
      (hroot : GivesRoot (fields "root") root) (hvalue : fields "names" = some value)
      (h : ∀ names, ¬ GivesNames (some value) names) : Fault fields (.wrongNames value)

theorem isBlank_iff (value : Datum) : value.isBlank = true ↔ IsNothing value := by
  constructor
  · intro h
    unfold Datum.isBlank at h
    split at h
    · exact .null
    · exact .false
    · exact .text
    · exact .bytes
    · exact .list
    · exact .set
    · exact .mapping
    · obtain rfl := of_decide_eq_true h
      exact .int
    · exact .float h
    · cases h
  · intro h
    cases h with
    | float hx => exact hx
    | _ => rfl

theorem texts?_map_text (names : List String) : texts? (names.map .text) = some names := by
  induction names with
  | nil => rfl
  | cons name rest ih => simp [texts?, ih]

theorem eq_map_text_of_texts? {items : List Datum} {names : List String}
    (h : texts? items = some names) : items = names.map .text := by
  fun_induction texts? items generalizing names with
  | case1 =>
      cases h
      rfl
  | case2 s rest ih =>
      obtain ⟨names, hnames, rfl⟩ := Option.map_eq_some_iff.1 h
      exact congrArg _ (ih hnames)
  | case3 => cases h

theorem checkKind_cases (fields : Fields) :
    (GivesKind (fields "kind") ∧ checkKind fields = .ok ()) ∨
      ∃ value, fields "kind" = some value ∧ ¬ GivesKind (some value) ∧
        checkKind fields = .error (.wrongKind value) := by
  unfold checkKind
  cases fields "kind" with
  | none => exact .inl ⟨.absent, rfl⟩
  | some value =>
      cases value with
      | text s =>
          by_cases hs : s = pathKind
          · subst hs
            exact .inl ⟨.path, if_pos rfl⟩
          · refine .inr ⟨_, rfl, ?_, if_neg hs⟩
            rintro ⟨⟩
            exact hs rfl
      | _ => exact .inr ⟨_, rfl, nofun, rfl⟩

theorem rootOf_cases (fields : Fields) :
    (∃ root, GivesRoot (fields "root") root ∧ rootOf fields = .ok root) ∨
      ∃ value, fields "root" = some value ∧ (∀ root, ¬ GivesRoot (some value) root) ∧
        rootOf fields = .error (.wrongRoot value) := by
  unfold rootOf
  cases fields "root" with
  | none => exact .inl ⟨none, .absent, rfl⟩
  | some value =>
      cases value with
      | null => exact .inl ⟨none, .null, rfl⟩
      | text s => exact .inl ⟨some s, .text s, rfl⟩
      | _ => exact .inr ⟨_, rfl, nofun, rfl⟩

theorem namesOf_cases (fields : Fields) :
    (∃ names, GivesNames (fields "names") names ∧ namesOf fields = .ok names) ∨
      ∃ value, fields "names" = some value ∧ (∀ names, ¬ GivesNames (some value) names) ∧
        namesOf fields = .error (.wrongNames value) := by
  unfold namesOf
  cases fields "names" with
  | none => exact .inl ⟨[], .absent, rfl⟩
  | some value =>
      by_cases hblank : value.isBlank = true
      · exact .inl ⟨[], .nothing ((isBlank_iff value).1 hblank), if_pos hblank⟩
      · have hvalue : ¬ IsNothing value := fun h => hblank ((isBlank_iff value).2 h)
        simp only [hblank, Bool.false_eq_true, if_false]
        cases value with
        | list items =>
            cases htexts : texts? items with
            | some names =>
                obtain rfl := eq_map_text_of_texts? htexts
                exact .inl ⟨names, .texts names, by simp only [htexts]⟩
            | none =>
                refine .inr ⟨_, rfl, fun names h => ?_, by simp only [htexts]⟩
                cases h with
                | nothing h => exact hvalue h
                | texts => simp [texts?_map_text] at htexts
        | _ =>
            refine .inr ⟨_, rfl, fun names h => ?_, rfl⟩
            cases h with
            | nothing h => exact hvalue h

theorem GivesRoot.unique {given : Option Datum} {root root' : Option String}
    (h : GivesRoot given root) (h' : GivesRoot given root') : root = root' := by
  cases h <;> cases h' <;> rfl

theorem GivesNames.eq_nil_of_isNothing {value : Datum} {names : List String}
    (hvalue : IsNothing value) (h : GivesNames (some value) names) : names = [] := by
  cases h with
  | nothing => rfl
  | texts names =>
      cases names with
      | nil => rfl
      | cons => cases hvalue

theorem GivesNames.unique {given : Option Datum} {names names' : List String}
    (h : GivesNames given names) (h' : GivesNames given names') : names = names' := by
  cases h with
  | absent =>
      cases h'
      rfl
  | nothing hvalue => exact (h'.eq_nil_of_isNothing hvalue).symm
  | texts names =>
      -- The empty list is nothing as well as a list of texts.
      generalize htexts : names.map Datum.text = items at h'
      cases h' with
      | nothing hvalue => exact (GivesNames.texts names).eq_nil_of_isNothing (htexts ▸ hvalue)
      | texts names' => exact (List.map_inj_right fun _ _ hst => Datum.text.inj hst).1 htexts

theorem Gives.unique {fields : Fields} {p p' : Path} (h : Gives fields p) (h' : Gives fields p') :
    p = p' := by
  cases p
  cases p'
  congr
  · exact h.root.unique h'.root
  · exact h.names.unique h'.names

theorem Fault.not_gives {fields : Fields} {e : ShapeError} (he : Fault fields e) (p : Path) :
    ¬ Gives fields p := by
  intro hp
  cases he with
  | kind hvalue h => exact h (hvalue ▸ hp.kind)
  | root _ hvalue h => exact h _ (hvalue ▸ hp.root)
  | names _ _ hvalue h => exact h _ (hvalue ▸ hp.names)

theorem Fault.unique {fields : Fields} {e e' : ShapeError} (he : Fault fields e)
    (he' : Fault fields e') : e = e' := by
  cases he <;> cases he' <;> grind

theorem ofFields_cases (fields : Fields) :
    (∃ p, Gives fields p ∧ ofFields fields = .ok p) ∨
      ∃ e, Fault fields e ∧ ofFields fields = .error e := by
  unfold ofFields
  rcases checkKind_cases fields with ⟨hkind, h⟩ | ⟨value, hvalue, hkind, h⟩
  · rw [h]
    rcases rootOf_cases fields with ⟨root, hroot, h⟩ | ⟨value, hvalue, hroot, h⟩
    · rw [h]
      rcases namesOf_cases fields with ⟨names, hnames, h⟩ | ⟨value, hvalue, hnames, h⟩
      · rw [h]
        exact .inl ⟨⟨root, names⟩, ⟨hkind, hroot, hnames⟩, rfl⟩
      · rw [h]
        exact .inr ⟨_, .names hkind hroot hvalue hnames, rfl⟩
    · rw [h]
      exact .inr ⟨_, .root hkind hvalue hroot, rfl⟩
  · rw [h]
    exact .inr ⟨_, .kind hvalue hkind, rfl⟩

theorem ofFields_eq_ok_iff {fields : Fields} {p : Path} :
    ofFields fields = .ok p ↔ Gives fields p := by
  obtain ⟨p', hp', h⟩ | ⟨e, he, h⟩ := ofFields_cases fields
  · rw [h]
    constructor
    · rintro ⟨⟩
      exact hp'
    · intro hp
      rw [hp.unique hp']
  · rw [h]
    exact iff_of_false nofun (he.not_gives p)

theorem ofFields_eq_error_iff {fields : Fields} {e : ShapeError} :
    ofFields fields = .error e ↔ Fault fields e := by
  obtain ⟨p, hp, h⟩ | ⟨e', he', h⟩ := ofFields_cases fields
  · rw [h]
    exact iff_of_false nofun fun he => he.not_gives p hp
  · rw [h]
    constructor
    · rintro ⟨⟩
      exact he'
    · intro he
      rw [he.unique he']

/-- A mapping is read as the path that its fields give, and is refused, with the error that names
it, for the first field that gives nothing. -/
theorem toPath_mapping_iff (entries : List (Datum × Datum)) :
    (∀ p, toPath (.mapping entries) = .ok p ↔ Gives (Datum.lookup? · entries) p) ∧
      ∀ e, toPath (.mapping entries) = .error e ↔ Fault (Datum.lookup? · entries) e :=
  ⟨fun _ => ofFields_eq_ok_iff, fun _ => ofFields_eq_error_iff⟩

/-- A zero stands for no names, although it is neither null nor a list of texts. -/
theorem toPath_names_zero :
    toPath (.mapping [(.text "names", .int 0)]) = .ok .empty ∧
      Datum.lookup? "names" [(.text "names", .int 0)] = some (.int 0) ∧
      Datum.int 0 ≠ .null ∧ ∀ names : List String, Datum.int 0 ≠ .list (names.map .text) :=
  ⟨rfl, rfl, nofun, nofun⟩

theorem ofFields_eq {fields : Fields} {p : Path} (hkind : fields "kind" = some (.text pathKind))
    (hroot : fields "root" = some (p.root.elim .null .text))
    (hnames : fields "names" = some (.list (p.names.map .text))) :
    ofFields fields = .ok p := by
  refine ofFields_eq_ok_iff.2 ⟨hkind ▸ .path, ?_, hnames ▸ .texts p.names⟩
  rw [hroot]
  cases p.root with
  | none => exact .null
  | some s => exact .text s

theorem toPath_ofPath (p : Path) : toPath (ofPath p) = .ok p := by
  unfold toPath ofPath
  apply ofFields_eq <;> simp [Datum.lookup?]

end LexicalPath.Document
