import LexicalPath.Proofs.Registry.Run

/-!
What loading entry points comes to. A name that is registered stays as it is, and each other name
gets the first factory that an entry point gives for it (`assoc?_factories_loaded`). No factory is
called, and loading once more changes nothing. Nothing is raised where the entry points behave
(`answer_loadEntryPoints`).
-/

namespace LexicalPath

namespace EntryPoint

/-- Loading the entry point ends with an offer or with an error, and showing what it registers does
not end the program either. Showing what it offers raises nothing but errors that tell of a wrong
type. -/
structure Behaves (e : EntryPoint) : Prop where
  registers : ∀ entry ∈ e.registers, ∀ error,
    entry.2.shown = .error error → error.isError = true
  load : ∀ error, e.load = .error error → error.isError = true
  shown : ∀ offer error, e.load = .ok offer → offer.shown = .error error →
    (RegistryError.raised error).isUnfit = true

/-- The entry point is one of the group and gives a factory for the name. -/
structure Gives (e : EntryPoint) (group name : String) (f : Factory) : Prop where
  group : e.group = group
  name : e.name = name
  load : e.load = .ok (.factory f)

def given? (group name : String) (e : EntryPoint) : Option Factory :=
  match e.load with
  | .ok (.factory f) => if e.group = group ∧ e.name = name then some f else none
  | _ => none

theorem given?_eq_some_iff (group name : String) (e : EntryPoint) (f : Factory) :
    e.given? group name = some f ↔ e.Gives group name f := by
  constructor
  · intro h
    unfold given? at h
    split at h
    · rename_i g hload
      obtain ⟨⟨hgroup, hname⟩, hf⟩ := Option.ite_none_right_eq_some.mp h
      obtain rfl := Option.some.inj hf
      exact ⟨hgroup, hname, hload⟩
    · cases h
  · rintro ⟨rfl, rfl, hload⟩
    rw [given?, hload]
    exact if_pos ⟨rfl, rfl⟩

theorem given?_eq_none_iff (group name : String) (e : EntryPoint) :
    e.given? group name = none ↔ ∀ f, ¬ e.Gives group name f := by
  simp only [← given?_eq_some_iff, Option.eq_none_iff_forall_ne_some, ne_eq]

end EntryPoint

namespace Registry

/-! ### What is raised -/

theorem register_error_cases {r : Registry} {name : String} {offer : Offer} {e : RegistryError}
    (h : (r.register name offer).answer = .error e) :
    (e.isError = true ∧ e.isUnfit = true) ∨
      ∃ error, offer.shown = .error error ∧ e = .raised error := by
  rcases r.register_inversion name offer with
    ⟨f, -, hreply⟩ | ⟨shown, rfl, -, hreply⟩ | ⟨f, label, -, -, -, hreply⟩ |
      ⟨f, error, rfl, -, hlabel, hreply⟩
  · rw [hreply] at h
    cases h
    exact Or.inl ⟨rfl, rfl⟩
  · rw [hreply] at h
    cases h
    cases shown with
    | ok text => exact Or.inl ⟨rfl, rfl⟩
    | error error => exact Or.inr ⟨error, rfl, rfl⟩
  · rw [hreply] at h
    cases h
  · rw [hreply] at h
    cases h
    exact Or.inr ⟨error, hlabel, rfl⟩

theorem isError_of_registerAll {r : Registry} {offers : List (String × Offer)}
    (hoffers : ∀ entry ∈ offers, ∀ error, entry.2.shown = .error error → error.isError = true)
    {e : RegistryError} (h : (r.registerAll offers).answer = .error e) : e.isError = true := by
  induction offers generalizing r with
  | nil => cases h
  | cons entry rest ih =>
      obtain ⟨hentry, hrest⟩ := List.forall_mem_cons.mp hoffers
      rw [registerAll] at h
      cases hanswer : (r.register entry.1 entry.2).answer with
      | error e' =>
          rw [Reply.andThen_of_error hanswer] at h
          cases h
          rcases register_error_cases hanswer with ⟨herror, -⟩ | ⟨error, hshown, rfl⟩
          · exact herror
          · exact hentry error hshown
      | ok _ =>
          rw [Reply.andThen_of_ok hanswer] at h
          exact ih hrest h

theorem fetch_inversion (r : Registry) (e : EntryPoint) :
    (∃ error, (r.registerAll e.registers).answer = .error error ∧
      (r.fetch e).answer = .error error) ∨
    (r.fetch e).answer = e.load.mapError .raised := by
  rw [fetch]
  cases h : (r.registerAll e.registers).answer with
  | error error =>
      rw [Reply.andThen_of_error h]
      exact Or.inl ⟨error, rfl, rfl⟩
  | ok _ =>
      rw [Reply.andThen_of_ok h]
      exact Or.inr rfl

theorem isError_of_fetch {r : Registry} {e : EntryPoint} (he : e.Behaves) {error : RegistryError}
    (h : (r.fetch e).answer = .error error) : error.isError = true := by
  rcases r.fetch_inversion e with ⟨error', hregistered, hfetch⟩ | hfetch
  · obtain rfl := Except.error.inj (h.symm.trans hfetch)
    exact isError_of_registerAll he.registers hregistered
  · rw [h] at hfetch
    cases hload : e.load with
    | error raised =>
        rw [hload] at hfetch
        obtain rfl := Except.error.inj hfetch
        exact he.load raised hload
    | ok offer =>
        rw [hload] at hfetch
        cases hfetch

theorem load_of_fetch {r : Registry} {e : EntryPoint} {offer : Offer}
    (h : (r.fetch e).answer = .ok offer) : e.load = .ok offer := by
  rcases r.fetch_inversion e with ⟨error, -, hfetch⟩ | hfetch
  · rw [h] at hfetch
    cases hfetch
  · rw [h] at hfetch
    cases hload : e.load with
    | error raised =>
        rw [hload] at hfetch
        cases hfetch
    | ok other =>
        rw [hload] at hfetch
        exact congrArg Except.ok (Except.ok.inj hfetch).symm

theorem answer_loadEntryPoint {r : Registry} {e : EntryPoint}
    (h : r.contains e.name = true ∨ e.Behaves) : (r.loadEntryPoint e).answer = .ok () := by
  rcases r.loadEntryPoint_inversion e with
    ⟨-, hanswer, -⟩ | ⟨error, hname, hfetch, hanswer, -⟩ | ⟨offer, hname, hfetch, hanswer, -⟩
  · exact hanswer
  · have hbehaves := h.resolve_left (by simp [hname])
    rw [hanswer, passed, if_pos (isError_of_fetch hbehaves hfetch)]
  · have hbehaves := h.resolve_left (by simp [hname])
    rw [hanswer]
    cases hregister : ((r.fetch e).registry.register e.name offer).answer with
    | ok _ => rfl
    | error error =>
        have hunfit : error.isUnfit = true := by
          rcases register_error_cases hregister with ⟨-, hunfit⟩ | ⟨raised, hshown, rfl⟩
          · exact hunfit
          · exact hbehaves.shown offer raised (load_of_fetch hfetch) hshown
        rw [passed, if_pos hunfit]

theorem contains_loadEntryPoint {r : Registry} {name : String} (h : r.contains name = true)
    (e : EntryPoint) : (r.loadEntryPoint e).registry.contains name = true := by
  refine loadEntryPoint_induction (P := fun r => r.contains name = true) ?_ h e
  intro r other f hr _
  rw [contains, assoc?_append, Option.isSome_or]
  exact Bool.or_eq_true_iff.mpr (Or.inl hr)

/-- Loading raises nothing where the entry points behave whose names are free. -/
theorem answer_loadEntryPoints {r : Registry} {group : String} {entries : List EntryPoint}
    (h : ∀ e ∈ entries, e.group = group → r.contains e.name = true ∨ e.Behaves) :
    (r.loadEntryPoints group entries).answer = .ok () := by
  induction entries generalizing r with
  | nil => rfl
  | cons e rest ih =>
      obtain ⟨he, hrest⟩ := List.forall_mem_cons.mp h
      by_cases hgroup : e.group = group
      · rw [loadEntryPoints, if_pos hgroup,
          Reply.andThen_of_ok (answer_loadEntryPoint (he hgroup))]
        exact ih fun other hother hin =>
          (hrest other hother hin).imp_left fun hname => contains_loadEntryPoint hname e
      · rw [loadEntryPoints_cons_of_ne r hgroup]
        exact ih hrest

/-! ### What is registered -/

/-- That a name is taken, which loading looks for first, is found by registering as well. -/
theorem registry_loadEntryPoint {r : Registry} {e : EntryPoint}
    (h : r.contains e.name = true ∨ e.registers = []) :
    (r.loadEntryPoint e).registry =
      match e.load with
      | .error _ => r
      | .ok offer => (r.register e.name offer).registry := by
  cases hname : r.contains e.name with
  | true =>
      rcases r.loadEntryPoint_inversion e with
        ⟨-, -, hregistry⟩ | ⟨_, hfree, -⟩ | ⟨_, hfree, -⟩
      · rw [hregistry]
        cases e.load with
        | error raised => rfl
        | ok offer => simp [register, hname]
      · rw [hname] at hfree
        cases hfree
      · rw [hname] at hfree
        cases hfree
  | false =>
      have hfetch : r.fetch e = { answer := e.load.mapError .raised, registry := r } := by
        rw [fetch, h.resolve_left (by simp [hname])]
        rfl
      rw [loadEntryPoint, if_neg (by simp [hname]), hfetch]
      cases e.load with
      | error raised => exact Reply.registry_passingOver _ _ _
      | ok offer => exact Reply.registry_passingOver _ _ _

theorem registry_loadEntryPoint_cases {r : Registry} {e : EntryPoint}
    (h : r.contains e.name = true ∨ e.registers = []) :
    ((r.contains e.name = true ∨ ∀ f, e.load ≠ .ok (.factory f)) ∧
      (r.loadEntryPoint e).registry = r) ∨
      ∃ f, assoc? e.name r.factories = none ∧ e.load = .ok (.factory f) ∧
        (r.loadEntryPoint e).registry = { r with factories := r.factories ++ [(e.name, f)] } := by
  rw [registry_loadEntryPoint h]
  cases hload : e.load with
  | error raised => exact Or.inl ⟨Or.inr (by simp), rfl⟩
  | ok offer =>
      rcases r.register_inversion e.name offer with
        ⟨f, hf, hreply⟩ | ⟨shown, rfl, -, hreply⟩ | ⟨f, label, rfl, hfree, -, hreply⟩ |
          ⟨f, error, rfl, hfree, -, hreply⟩
      · refine Or.inl ⟨Or.inl ?_, congrArg Reply.registry hreply⟩
        rw [contains, hf]
        rfl
      · exact Or.inl ⟨Or.inr (by simp), congrArg Reply.registry hreply⟩
      · exact Or.inr ⟨f, hfree, rfl, congrArg Reply.registry hreply⟩
      · exact Or.inr ⟨f, hfree, rfl, congrArg Reply.registry hreply⟩

theorem assoc?_factories_loadEntryPoint {r : Registry} {e : EntryPoint}
    (h : r.contains e.name = true ∨ e.registers = []) {group : String} (hgroup : e.group = group)
    (name : String) :
    assoc? name (r.loadEntryPoint e).registry.factories =
      (assoc? name r.factories).or (e.given? group name) := by
  rcases registry_loadEntryPoint_cases h with ⟨hkept, heq⟩ | ⟨f, hfree, hload, heq⟩
  · rw [heq]
    cases hname : assoc? name r.factories with
    | some f => rfl
    | none =>
        rw [Option.none_or, eq_comm, EntryPoint.given?_eq_none_iff]
        rintro f ⟨-, rfl, hload⟩
        rcases hkept with hcontains | hnone
        · rw [contains, hname] at hcontains
          cases hcontains
        · exact hnone f hload
  · rw [heq, assoc?_append, assoc?_singleton, EntryPoint.given?, hload]
    simp only [hgroup, true_and]

/-- Those of the entry points whose names are free behave, and register nothing on their own. -/
def OnlyOffered (r : Registry) (group : String) (entries : List EntryPoint) : Prop :=
  ∀ e ∈ entries, e.group = group → r.contains e.name = true ∨ e.Behaves ∧ e.registers = []

section

variable {r : Registry} {group : String} {entries : List EntryPoint}

theorem OnlyOffered.answer (h : r.OnlyOffered group entries) :
    (r.loadEntryPoints group entries).answer = .ok () :=
  answer_loadEntryPoints fun e he hgroup => (h e he hgroup).imp_right And.left

/-- Names that are registered stay as they are, and each other name gets what is given first. -/
theorem assoc?_factories_loaded (h : r.OnlyOffered group entries) (name : String) :
    assoc? name (r.loadEntryPoints group entries).registry.factories =
      (assoc? name r.factories).or (entries.findSome? (EntryPoint.given? group name)) := by
  induction entries generalizing r with
  | nil => rw [List.findSome?_nil, Option.or_none, loadEntryPoints]
  | cons e rest ih =>
      obtain ⟨he, hrest⟩ := List.forall_mem_cons.mp h
      rw [List.findSome?_cons]
      by_cases hgroup : e.group = group
      · have hnext : (r.loadEntryPoint e).registry.OnlyOffered group rest := fun other hother hin =>
          (hrest other hother hin).imp_left fun hname => contains_loadEntryPoint hname e
        rw [loadEntryPoints, if_pos hgroup,
          Reply.andThen_of_ok (answer_loadEntryPoint ((he hgroup).imp_right And.left)), ih hnext,
          assoc?_factories_loadEntryPoint ((he hgroup).imp_right And.right) hgroup,
          Option.or_assoc]
        cases e.given? group name <;> rfl
      · have hnone : e.given? group name = none :=
          (e.given?_eq_none_iff group name).mpr fun f hgives => hgroup hgives.group
        rw [loadEntryPoints_cons_of_ne r hgroup, ih hrest, hnone]

theorem contains_loaded_iff (h : r.OnlyOffered group entries) (name : String) :
    (r.loadEntryPoints group entries).registry.contains name = true ↔
      r.contains name = true ∨ ∃ e ∈ entries, ∃ f, e.Gives group name f := by
  rw [contains, assoc?_factories_loaded h, Option.isSome_or, Bool.or_eq_true,
    List.findSome?_isSome_iff]
  simp only [Option.isSome_iff_exists, EntryPoint.given?_eq_some_iff, contains]

theorem OnlyOffered.loaded (h : r.OnlyOffered group entries) :
    (r.loadEntryPoints group entries).registry.OnlyOffered group entries :=
  fun e he hgroup => (h e he hgroup).imp_left fun hname =>
    (contains_loaded_iff h e.name).mpr (Or.inl hname)

end

end Registry

end LexicalPath
