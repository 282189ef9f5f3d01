import LexicalPath.Proofs.Registry.Run
import LexicalPath.Proofs.Registry.Standard

namespace LexicalPath.Registry

/-- Under the name of each standard dialect stands its own factory, and no engine was built yet. -/
structure OffersStandard (r : Registry) : Prop where
  factories : ∀ d : StandardDialect, assoc? d.name r.factories = assoc? d.name standard.factories
  engines : r.engines = []

theorem exists_standard_factory (d : StandardDialect) :
    ∃ f, assoc? d.name standard.factories = some f ∧ ∀ call, f.call call = .dialect d.dialect := by
  cases d with
  | unix => exact ⟨unixFactory 0, rfl, fun _ => rfl⟩
  | windows => exact ⟨windowsFactory 1, rfl, fun _ => rfl⟩

theorem offersStandard_add {r : Registry} (hr : r.OffersStandard) (name : String) (f : Factory) :
    OffersStandard { r with factories := r.factories ++ [(name, f)] } where
  factories := by
    intro d
    obtain ⟨standing, hstanding, -⟩ := exists_standard_factory d
    rw [assoc?_append, hr.factories, hstanding]
    rfl
  engines := hr.engines

theorem offersStandard_loaded (group : String) (entries : List EntryPoint) :
    (standard.loadEntryPoints group entries).registry.OffersStandard :=
  loadEntryPoints_induction (P := OffersStandard)
    (fun _ name f hr _ => offersStandard_add hr name f) ⟨fun _ => rfl, rfl⟩ group entries

theorem exists_create_of_offersStandard {r : Registry} (hr : r.OffersStandard)
    (d : StandardDialect) :
    ∃ engine, (r.create d.name).answer = .ok engine ∧ engine.dialect = d.dialect := by
  obtain ⟨f, hf, hcall⟩ := exists_standard_factory d
  rw [← hr.factories] at hf
  refine ⟨⟨.built r.calls, d.dialect⟩, ?_, rfl⟩
  simp only [create, (get_eq_ok_iff r d.name f).mpr hf, hr.engines, assoc?, hcall, Outcome.made]

end LexicalPath.Registry
