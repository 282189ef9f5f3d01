import LexicalPath.Proofs.Registry.Tenure

namespace LexicalPath

/-- The request is to put what is offered under the name. -/
inductive Request.Registers (name : String) (offer : Offer) : Request → Prop where
  | plain : Registers name offer (.registerFactory name offer)
  | decorator : Registers name offer (.decorate name offer)

/-- The request is about what stands under the name. -/
inductive Request.Needs (name : String) : Request → Prop where
  | deregister : Needs name (.deregister name)
  | get : Needs name (.get name)
  | create : Needs name (.create name)

namespace Registry

/-- The causes for which a request is refused: a name that is taken, an object that cannot be
called, a name that is not known, a factory that raises something and one that returns no engine.
What a factory raises is passed on as it is. Of an object that is turned down the error tells by
showing it, and where that raises something, this is raised instead. -/
inductive Refuses (r : Registry) : Request → RegistryError → Prop where
  | taken {name : String} {offer : Offer} {q : Request} (hq : q.Registers name offer)
      (hname : r.contains name = true) : Refuses r q (.alreadyRegistered name)
  | notCallable {name text : String} {q : Request} (hq : q.Registers name (.value (.ok text)))
      (hname : r.contains name = false) : Refuses r q (.notCallable name text)
  | notCallableUnshown {name : String} {e : Raised} {q : Request}
      (hq : q.Registers name (.value (.error e))) (hname : r.contains name = false) :
      Refuses r q (.raised e)
  | unknown {name : String} {q : Request} (hq : q.Needs name) (hname : r.contains name = false) :
      Refuses r q (.notRegistered name r.names)
  | failed {name : String} {f : Factory} {e : Raised} (hf : r.get name = .ok f)
      (hnone : assoc? name r.engines = none) (hcall : f.call r.calls = .failure e) :
      Refuses r (.create name) (.raised e)
  | notEngine {name text : String} {f : Factory} (hf : r.get name = .ok f)
      (hnone : assoc? name r.engines = none) (hcall : f.call r.calls = .other (.ok text)) :
      Refuses r (.create name) (.notEngine name text)
  | notEngineUnshown {name : String} {f : Factory} {e : Raised} (hf : r.get name = .ok f)
      (hnone : assoc? name r.engines = none) (hcall : f.call r.calls = .other (.error e)) :
      Refuses r (.create name) (.raised e)

/-- A request to register a factory that is carried out, although showing the factory for the log
raises something. -/
structure FailsLate (r : Registry) (q : Request) (name : String) (f : Factory) (e : Raised) :
    Prop where
  registers : q.Registers name (.factory f)
  free : r.contains name = false
  label : f.label = .error e

variable {r : Registry} {q : Request} {e : RegistryError}

theorem contains_eq_false_iff (r : Registry) (name : String) :
    r.contains name = false ↔ assoc? name r.factories = none := by
  rw [contains, Option.isSome_eq_false_iff, Option.isNone_iff_eq_none]

theorem create_of_made_error {name : String} {f : Factory} (hf : r.get name = .ok f)
    (hnone : assoc? name r.engines = none)
    (hmade : (f.call r.calls).made name r.calls = .error e) :
    r.create name = { answer := .error e, registry := { r with calls := r.calls + 1 } } := by
  rw [create, hf]
  simp only [hnone, hmade]

theorem serve_create_of_made_error {name : String} {f : Factory} (hf : r.get name = .ok f)
    (hnone : assoc? name r.engines = none)
    (hmade : (f.call r.calls).made name r.calls = .error e) :
    r.serve (.create name) = (.error e, { r with calls := r.calls + 1 }) := by
  rw [serve, create_of_made_error hf hnone hmade]
  rfl

theorem serve_of_registers {name : String} {offer : Offer} (hq : q.Registers name offer)
    {next : Registry}
    (hanswer : (r.register name offer).answer = .error e)
    (hnext : (r.register name offer).registry = next) : r.serve q = (.error e, next) := by
  cases hq <;> rw [serve, hanswer, hnext] <;> rfl

theorem Refuses.serve (h : r.Refuses q e) :
    ∃ calls, r.serve q = (.error e, { r with calls }) := by
  cases h with
  | taken hq hname =>
      exact ⟨r.calls, serve_of_registers hq (by simp [register, hname])
        (by simp [register, hname])⟩
  | notCallable hq hname =>
      exact ⟨r.calls, serve_of_registers hq (by simp [register, hname, RegistryError.showing])
        (by simp [register, hname])⟩
  | notCallableUnshown hq hname =>
      exact ⟨r.calls, serve_of_registers hq (by simp [register, hname, RegistryError.showing])
        (by simp [register, hname])⟩
  | @unknown name _ hq hname =>
      have hget : r.get name = .error (.notRegistered name r.names) := by
        rw [get, (r.contains_eq_false_iff name).mp hname]
      refine ⟨r.calls, ?_⟩
      cases hq with
      | deregister =>
          rw [Registry.serve, deregister, if_neg (by simp [hname])]
          rfl
      | get =>
          rw [Registry.serve, hget]
          rfl
      | create =>
          rw [Registry.serve, create, hget]
          rfl
  | failed hf hnone hcall =>
      exact ⟨_, serve_create_of_made_error hf hnone (by rw [hcall, Outcome.made])⟩
  | notEngine hf hnone hcall =>
      exact ⟨_, serve_create_of_made_error hf hnone (by rw [hcall]; rfl)⟩
  | notEngineUnshown hf hnone hcall =>
      exact ⟨_, serve_create_of_made_error hf hnone (by rw [hcall]; rfl)⟩

theorem FailsLate.serve {name : String} {f : Factory} {error : Raised}
    (h : r.FailsLate q name f error) :
    r.serve q =
      (.error (.raised error), { r with factories := r.factories ++ [(name, f)] }) :=
  serve_of_registers h.registers (by simp [register, h.free, h.label])
    (by simp [register, h.free, h.label])

end Registry

end LexicalPath
