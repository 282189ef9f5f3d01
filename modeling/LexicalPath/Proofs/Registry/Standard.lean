import LexicalPath.Proofs.Registry.Entries
import LexicalPath.Proofs.Dialect.WellFormed

namespace LexicalPath

namespace Registry

/-- The factories are those of the standard dialects. The engine under a name is of the dialect of
that name, and was built at a factory call of its own. -/
structure IsStandard (r : Registry) : Prop where
  factories : r.factories = standard.factories
  dialect : ∀ (d : StandardDialect) (engine : Engine),
    assoc? d.name r.engines = some engine → engine.dialect = d.dialect
  built : ∀ (d : StandardDialect) (engine : Engine),
    assoc? d.name r.engines = some engine → ∃ call < r.calls, engine.id = .built call
  distinct : ∀ (d e : StandardDialect) (engine other : Engine),
    assoc? d.name r.engines = some engine → assoc? e.name r.engines = some other →
      engine.id = other.id → d = e

theorem isStandard_standard : standard.IsStandard where
  factories := rfl
  dialect := by
    intro d engine h
    cases h
  built := by
    intro d engine h
    cases h
  distinct := by
    intro d e engine other h
    cases h

theorem get_of_isStandard {r : Registry} (hr : r.IsStandard) (name : String) :
    (∃ e, r.get name = .error e) ∨
      ∃ (d : StandardDialect) (f : Factory),
        name = d.name ∧ r.get name = .ok f ∧ ∀ call, f.call call = .dialect d.dialect := by
  rw [get, hr.factories]
  by_cases hunix : name = "unix"
  · subst hunix
    exact Or.inr ⟨.unix, unixFactory 0, rfl, rfl, fun _ => rfl⟩
  · by_cases hwindows : name = "windows"
    · subst hwindows
      exact Or.inr ⟨.windows, windowsFactory 1, rfl, rfl, fun _ => rfl⟩
    · left
      rw [standard, assoc?, if_neg (Ne.symm hunix), assoc?, if_neg (Ne.symm hwindows)]
      exact ⟨_, rfl⟩

/-- The registry after the engine of a standard dialect was built. -/
def withBuilt (r : Registry) (d : StandardDialect) : Registry :=
  { r with
    calls := r.calls + 1
    engines := r.engines ++ [(d.name, ⟨.built r.calls, d.dialect⟩)] }

theorem create_cases {r : Registry} (hr : r.IsStandard) (name : String) :
    (∃ e, (r.create name).answer = .error e ∧ (r.create name).registry = r) ∨
      ∃ d : StandardDialect, name = d.name ∧
        ((∃ engine, assoc? d.name r.engines = some engine ∧
            (r.create name).answer = .ok engine ∧ (r.create name).registry = r) ∨
          (assoc? d.name r.engines = none ∧
            (r.create name).answer = .ok ⟨.built r.calls, d.dialect⟩ ∧
            (r.create name).registry = r.withBuilt d)) := by
  rw [create]
  rcases get_of_isStandard hr name with ⟨e, hget⟩ | ⟨d, f, rfl, hget, hcall⟩
  · left
    rw [hget]
    exact ⟨e, rfl, rfl⟩
  · right
    refine ⟨d, rfl, ?_⟩
    rw [hget]
    cases hengine : assoc? d.name r.engines with
    | some engine => exact Or.inl ⟨engine, rfl, rfl, rfl⟩
    | none =>
        refine Or.inr ⟨rfl, ?_, ?_⟩
        · simp only [hcall, Outcome.made]
        · simp only [hcall, Outcome.made]
          rfl

theorem assoc?_withBuilt {r : Registry} (d : StandardDialect) (key : String) :
    assoc? key (r.withBuilt d).engines =
      (assoc? key r.engines).or
        (if d.name = key then some ⟨.built r.calls, d.dialect⟩ else none) := by
  rw [withBuilt, assoc?_append, assoc?_singleton]

theorem assoc?_withBuilt_cases {r : Registry} {d e : StandardDialect} {engine : Engine}
    (h : assoc? e.name (r.withBuilt d).engines = some engine) :
    assoc? e.name r.engines = some engine ∨ e = d ∧ engine = ⟨.built r.calls, d.dialect⟩ := by
  rw [assoc?_withBuilt] at h
  rcases Option.or_eq_some_iff.mp h with h | ⟨-, h⟩
  · exact Or.inl h
  · split at h
    · rename_i hname
      exact Or.inr ⟨(StandardDialect.name_injective hname).symm, (Option.some.inj h).symm⟩
    · cases h

theorem isStandard_withBuilt {r : Registry} (hr : r.IsStandard) (d : StandardDialect) :
    (r.withBuilt d).IsStandard where
  factories := hr.factories
  dialect := by
    intro e engine h
    rcases assoc?_withBuilt_cases h with h | ⟨rfl, rfl⟩
    · exact hr.dialect e engine h
    · rfl
  built := by
    intro e engine h
    rcases assoc?_withBuilt_cases h with h | ⟨rfl, rfl⟩
    · obtain ⟨call, hlt, hid⟩ := hr.built e engine h
      exact ⟨call, Nat.lt_succ_of_lt hlt, hid⟩
    · exact ⟨r.calls, Nat.lt_succ_self _, rfl⟩
  distinct := by
    intro e f engine other h h' hid
    -- The call at which the new engine is built is later than all calls before.
    have hfresh : ∀ (g : StandardDialect) (old : Engine),
        assoc? g.name r.engines = some old → old.id ≠ .built r.calls := by
      intro g old hold heq
      obtain ⟨call, hlt, hcall⟩ := hr.built g old hold
      rw [heq] at hcall
      have : r.calls = call := EngineId.built.inj hcall
      omega
    rcases assoc?_withBuilt_cases h with hold | ⟨he, rfl⟩
    · rcases assoc?_withBuilt_cases h' with hold' | ⟨-, rfl⟩
      · exact hr.distinct e f engine other hold hold' hid
      · exact absurd hid (hfresh e engine hold)
    · rcases assoc?_withBuilt_cases h' with hold' | ⟨hf, -⟩
      · exact absurd hid.symm (hfresh f other hold')
      · exact he.trans hf.symm

theorem isStandard_create {r : Registry} (hr : r.IsStandard) (name : String) :
    (r.create name).registry.IsStandard := by
  rcases create_cases hr name with ⟨_, -, h⟩ | ⟨d, -, ⟨_, -, -, h⟩ | ⟨-, -, h⟩⟩
  · rwa [h]
  · rwa [h]
  · rw [h]
    exact isStandard_withBuilt hr d

theorem assoc?_create {r : Registry} (hr : r.IsStandard) (name : String) {key : String}
    {engine : Engine} (h : assoc? key r.engines = some engine) :
    assoc? key (r.create name).registry.engines = some engine := by
  rcases create_cases hr name with ⟨_, -, hr'⟩ | ⟨d, -, ⟨_, -, -, hr'⟩ | ⟨-, -, hr'⟩⟩
  · rwa [hr']
  · rwa [hr']
  · rw [hr', assoc?_withBuilt, h]
    rfl

theorem assoc?_of_create_ok {r : Registry} (hr : r.IsStandard) {name : String} {engine : Engine}
    (h : (r.create name).answer = .ok engine) :
    ∃ d : StandardDialect, name = d.name ∧
      assoc? d.name (r.create name).registry.engines = some engine := by
  rcases create_cases hr name with ⟨_, herror, -⟩ | ⟨d, hname, hcases⟩
  · rw [herror] at h
    cases h
  · refine ⟨d, hname, ?_⟩
    rcases hcases with ⟨old, hold, hok, hr'⟩ | ⟨hnone, hok, hr'⟩
    · rw [hok] at h
      rw [hr', hold, ← Except.ok.inj h]
    · rw [hok] at h
      rw [hr', assoc?_withBuilt, hnone, if_pos rfl, ← Except.ok.inj h]
      rfl

theorem create_of_assoc? {r : Registry} (hr : r.IsStandard) {d : StandardDialect} {engine : Engine}
    (h : assoc? d.name r.engines = some engine) :
    (r.create d.name).answer = .ok engine ∧ (r.create d.name).registry = r := by
  rcases get_of_isStandard hr d.name with ⟨e, hget⟩ | ⟨_, f, -, hget, -⟩
  · rw [get, hr.factories] at hget
    cases d <;> cases hget
  · rw [create, hget, h]
    exact ⟨rfl, rfl⟩

end Registry

end LexicalPath
