import Mathlib.Data.List.Nodup
import LexicalPath.Registry.EntryPoint
import LexicalPath.Proofs.Registry.Entries

namespace LexicalPath

/-- What can be asked of a registry. A decorator registers what it is put on and gives it back. -/
inductive Request where
  | registerFactory (name : String) (offer : Offer)
  | decorate (name : String) (offer : Offer)
  | deregister (name : String)
  | get (name : String)
  | create (name : String)
  | contains (name : String)
  | names
  | size
  | loadEntryPoints (group : String) (entries : List EntryPoint)

inductive Answer where
  | done
  | offer (offer : Offer)
  | factory (f : Factory)
  | engine (e : Engine)
  | bool (b : Bool)
  | names (names : List String)
  | size (n : Nat)

/-- A request with its answer and the numbers of factory calls before and after it. -/
structure Event where
  request : Request
  answer : Except RegistryError Answer
  callsBefore : Nat
  callsAfter : Nat

structure Server (σ : Type) where
  serve : σ → Request → Except RegistryError Answer × σ
  calls : σ → Nat

namespace Server

variable {σ τ : Type}

def event (m : Server σ) (s : σ) (q : Request) : Event :=
  ⟨q, (m.serve s q).1, m.calls s, m.calls (m.serve s q).2⟩

def run (m : Server σ) (s : σ) (requests : List Request) : σ :=
  requests.foldl (fun s q => (m.serve s q).2) s

def events (m : Server σ) (s : σ) : List Request → List Event
  | [] => []
  | q :: rest => m.event s q :: m.events (m.serve s q).2 rest

theorem run_append (m : Server σ) (s : σ) (requests more : List Request) :
    m.run s (requests ++ more) = m.run (m.run s requests) more := by
  simp [run]

theorem events_append (m : Server σ) (s : σ) (requests more : List Request) :
    m.events s (requests ++ more) = m.events s requests ++ m.events (m.run s requests) more := by
  induction requests generalizing s with
  | nil => rfl
  | cons q rest ih =>
      rw [List.cons_append, events, ih]
      rfl

theorem run_induction {m : Server σ} {P : σ → Prop} (hserve : ∀ s q, P s → P (m.serve s q).2)
    {s : σ} (hs : P s) (requests : List Request) : P (m.run s requests) := by
  induction requests generalizing s with
  | nil => exact hs
  | cons q rest ih => exact ih (hserve s q hs)

/-- Two ways of serving that keep their states related are not told apart by any requests. -/
theorem events_eq_of_simulation {m : Server σ} {n : Server τ} {R : σ → τ → Prop}
    (hserve : ∀ s t q, R s t → m.event s q = n.event t q ∧ R (m.serve s q).2 (n.serve t q).2)
    {s : σ} {t : τ} (h : R s t) (requests : List Request) :
    m.events s requests = n.events t requests := by
  induction requests generalizing s t with
  | nil => rfl
  | cons q rest ih =>
      obtain ⟨hevent, hnext⟩ := hserve s t q h
      rw [events, events, hevent, ih hnext]

end Server

/-- An answer when some errors are passed over. -/
def passed (p : RegistryError → Bool) : Except RegistryError Unit → Except RegistryError Unit
  | .ok () => .ok ()
  | .error e => if p e then .ok () else .error e

namespace Reply

variable {α : Type} {first : Reply Unit} {next : Registry → Reply α}

theorem andThen_of_ok (h : first.answer = .ok ()) :
    first.andThen next =
      { next first.registry with log := first.log ++ (next first.registry).log } := by
  rw [andThen, h]

theorem andThen_of_error {e : RegistryError} (h : first.answer = .error e) :
    first.andThen next = { answer := .error e, registry := first.registry, log := first.log } := by
  rw [andThen, h]

theorem andThen_induction {P : Registry → Prop} (hfirst : P first.registry)
    (hnext : P (next first.registry).registry) : P (first.andThen next).registry := by
  cases h : first.answer with
  | error e => rwa [andThen_of_error h]
  | ok _ => rwa [andThen_of_ok h]

@[simp]
theorem answer_passingOver (reply : Reply Unit) (p : RegistryError → Bool) (record : LogRecord) :
    (reply.passingOver p record).answer = passed p reply.answer := by
  rw [passingOver]
  cases h : reply.answer with
  | ok _ => exact h
  | error e =>
      rw [passed]
      dsimp only
      split
      · rfl
      · exact h

@[simp]
theorem registry_passingOver (reply : Reply Unit) (p : RegistryError → Bool) (record : LogRecord) :
    (reply.passingOver p record).registry = reply.registry := by
  rw [passingOver]
  split
  · rfl
  · split <;> rfl

end Reply

namespace Registry

def serve (r : Registry) : Request → Except RegistryError Answer × Registry
  | .registerFactory name offer =>
      ((r.register name offer).answer.map fun _ => .done, (r.register name offer).registry)
  | .decorate name offer =>
      ((r.register name offer).answer.map fun _ => .offer offer, (r.register name offer).registry)
  | .deregister name =>
      ((r.deregister name).answer.map fun _ => .done, (r.deregister name).registry)
  | .get name => ((r.get name).map .factory, r)
  | .create name => ((r.create name).answer.map .engine, (r.create name).registry)
  | .contains name => (.ok (.bool (r.contains name)), r)
  | .names => (.ok (.names r.names), r)
  | .size => (.ok (.size r.size), r)
  | .loadEntryPoints group entries =>
      ((r.loadEntryPoints group entries).answer.map fun _ => .done,
        (r.loadEntryPoints group entries).registry)

def server : Server Registry where
  serve := serve
  calls := Registry.calls

theorem get_eq_ok_iff (r : Registry) (name : String) (f : Factory) :
    r.get name = .ok f ↔ assoc? name r.factories = some f := by
  rw [get]
  cases assoc? name r.factories <;> simp

theorem register_inversion (r : Registry) (name : String) (offer : Offer) :
    (∃ f, assoc? name r.factories = some f ∧
      r.register name offer =
        { answer := .error (.alreadyRegistered name), registry := r }) ∨
    (∃ shown, offer = .value shown ∧ assoc? name r.factories = none ∧
      r.register name offer =
        { answer := .error (.showing shown (.notCallable name)), registry := r }) ∨
    (∃ f label, offer = .factory f ∧ assoc? name r.factories = none ∧ f.label = .ok label ∧
      r.register name offer =
        { answer := .ok ()
          registry := { r with factories := r.factories ++ [(name, f)] }
          log := [.registered name label] }) ∨
    ∃ f e, offer = .factory f ∧ assoc? name r.factories = none ∧ f.label = .error e ∧
      r.register name offer =
        { answer := .error (.raised e)
          registry := { r with factories := r.factories ++ [(name, f)] } } := by
  unfold register contains
  cases hname : assoc? name r.factories with
  | some f => exact Or.inl ⟨f, rfl, rfl⟩
  | none =>
      cases offer with
      | value shown => exact Or.inr (Or.inl ⟨shown, rfl, rfl, rfl⟩)
      | factory f =>
          cases hlabel : f.label with
          | ok label =>
              exact Or.inr (Or.inr (Or.inl ⟨f, label, rfl, rfl, hlabel, by simp [hlabel]⟩))
          | error e =>
              exact Or.inr (Or.inr (Or.inr ⟨f, e, rfl, rfl, hlabel, by simp [hlabel]⟩))

theorem deregister_inversion (r : Registry) (name : String) :
    (assoc? name r.factories = none ∧
      r.deregister name = { answer := .error (.notRegistered name r.names), registry := r }) ∨
    ∃ f, assoc? name r.factories = some f ∧
      r.deregister name =
        { answer := .ok ()
          registry :=
            { r with
              factories := dropKey name r.factories
              engines := dropKey name r.engines }
          log := [.deregistered name] } := by
  rw [deregister, contains]
  cases assoc? name r.factories with
  | none => exact Or.inl ⟨rfl, rfl⟩
  | some f => exact Or.inr ⟨f, rfl, rfl⟩

theorem create_inversion (r : Registry) (name : String) :
    (assoc? name r.factories = none ∧
      r.create name = { answer := .error (.notRegistered name r.names), registry := r }) ∨
    ∃ f, assoc? name r.factories = some f ∧
      ((∃ engine, assoc? name r.engines = some engine ∧
          r.create name = { answer := .ok engine, registry := r }) ∨
        (∃ e, assoc? name r.engines = none ∧ (f.call r.calls).made name r.calls = .error e ∧
          r.create name = { answer := .error e, registry := { r with calls := r.calls + 1 } }) ∨
        ∃ engine, assoc? name r.engines = none ∧
          (f.call r.calls).made name r.calls = .ok engine ∧
          r.create name =
            { answer := .ok engine
              registry :=
                { r with calls := r.calls + 1, engines := r.engines ++ [(name, engine)] }
              log := [.built name engine.dialect] }) := by
  rw [create, get]
  cases assoc? name r.factories with
  | none => exact Or.inl ⟨rfl, rfl⟩
  | some f =>
      right
      refine ⟨f, rfl, ?_⟩
      cases assoc? name r.engines with
      | some engine => exact Or.inl ⟨engine, rfl, rfl⟩
      | none =>
          right
          cases hmade : (f.call r.calls).made name r.calls with
          | error e => exact Or.inl ⟨e, rfl, rfl, by simp only [hmade]⟩
          | ok engine => exact Or.inr ⟨engine, rfl, rfl, by simp only [hmade]⟩

theorem register_induction {P : Registry → Prop} {r : Registry} (hr : P r)
    (hadd : ∀ name f, assoc? name r.factories = none →
      P { r with factories := r.factories ++ [(name, f)] }) (name : String) (offer : Offer) :
    P (r.register name offer).registry := by
  rcases r.register_inversion name offer with
    ⟨f, -, hreply⟩ | ⟨shown, -, -, hreply⟩ | ⟨f, label, -, hfree, -, hreply⟩ |
      ⟨f, e, -, hfree, -, hreply⟩
  · rwa [hreply]
  · rwa [hreply]
  · rw [hreply]
    exact hadd name f hfree
  · rw [hreply]
    exact hadd name f hfree

theorem loadEntryPoint_inversion (r : Registry) (e : EntryPoint) :
    (r.contains e.name = true ∧ (r.loadEntryPoint e).answer = .ok () ∧
      (r.loadEntryPoint e).registry = r) ∨
    (∃ error, r.contains e.name = false ∧ (r.fetch e).answer = .error error ∧
      (r.loadEntryPoint e).answer = passed RegistryError.isError (.error error) ∧
      (r.loadEntryPoint e).registry = (r.fetch e).registry) ∨
    ∃ offer, r.contains e.name = false ∧ (r.fetch e).answer = .ok offer ∧
      (r.loadEntryPoint e).answer =
        passed RegistryError.isUnfit ((r.fetch e).registry.register e.name offer).answer ∧
      (r.loadEntryPoint e).registry = ((r.fetch e).registry.register e.name offer).registry := by
  cases hname : r.contains e.name with
  | true => exact Or.inl ⟨rfl, by simp [loadEntryPoint, hname], by simp [loadEntryPoint, hname]⟩
  | false =>
      right
      cases hfetch : (r.fetch e).answer with
      | error error =>
          exact Or.inl ⟨error, rfl, rfl, by simp [loadEntryPoint, hname, hfetch],
            by simp [loadEntryPoint, hname, hfetch]⟩
      | ok offer =>
          exact Or.inr ⟨offer, rfl, rfl, by simp [loadEntryPoint, hname, hfetch, Reply.andThen],
            by simp [loadEntryPoint, hname, hfetch, Reply.andThen]⟩

theorem loadEntryPoints_cons_of_ne (r : Registry) {group : String} {e : EntryPoint}
    (h : e.group ≠ group) (rest : List EntryPoint) :
    r.loadEntryPoints group (e :: rest) = r.loadEntryPoints group rest := by
  rw [loadEntryPoints, if_neg h]

section

variable {P : Registry → Prop}
  (hadd : ∀ r name f, P r → assoc? name r.factories = none →
    P { r with factories := r.factories ++ [(name, f)] })

include hadd

theorem registerAll_induction {r : Registry} (hr : P r) (offers : List (String × Offer)) :
    P (r.registerAll offers).registry := by
  induction offers generalizing r with
  | nil => exact hr
  | cons entry rest ih =>
      have hfirst : P (r.register entry.1 entry.2).registry :=
        register_induction hr (fun name f => hadd r name f hr) entry.1 entry.2
      exact Reply.andThen_induction hfirst (ih hfirst)

theorem loadEntryPoint_induction {r : Registry} (hr : P r) (e : EntryPoint) :
    P (r.loadEntryPoint e).registry := by
  have hfetch : P (r.fetch e).registry := by
    have hregistered := registerAll_induction hadd hr e.registers
    exact Reply.andThen_induction hregistered hregistered
  rcases r.loadEntryPoint_inversion e with
    ⟨-, -, hregistry⟩ | ⟨error, -, -, -, hregistry⟩ | ⟨offer, -, -, -, hregistry⟩
  · rwa [hregistry]
  · rwa [hregistry]
  · rw [hregistry]
    exact register_induction hfetch (fun name f => hadd _ name f hfetch) e.name offer

theorem loadEntryPoints_induction {r : Registry} (hr : P r) (group : String)
    (entries : List EntryPoint) : P (r.loadEntryPoints group entries).registry := by
  induction entries generalizing r with
  | nil => exact hr
  | cons e rest ih =>
      by_cases hgroup : e.group = group
      · have hfirst := loadEntryPoint_induction hadd hr e
        rw [loadEntryPoints, if_pos hgroup]
        exact Reply.andThen_induction hfirst (ih hfirst)
      · rw [loadEntryPoints_cons_of_ne r hgroup]
        exact ih hr

end

/-- What a request can do to a registry. -/
theorem serve_induction {P : Registry → Prop} {r : Registry} (q : Request) (hr : P r)
    (hadd : ∀ r name f, P r → assoc? name r.factories = none →
      P { r with factories := r.factories ++ [(name, f)] })
    (hdrop : ∀ name, q = .deregister name →
      P { r with
          factories := dropKey name r.factories
          engines := dropKey name r.engines })
    (hcalled : P { r with calls := r.calls + 1 })
    (hbuilt : ∀ name f engine, q = .create name → assoc? name r.factories = some f →
      P { r with calls := r.calls + 1, engines := r.engines ++ [(name, engine)] }) :
    P (r.serve q).2 := by
  cases q with
  | registerFactory name offer =>
      exact register_induction hr (fun name f => hadd r name f hr) name offer
  | decorate name offer => exact register_induction hr (fun name f => hadd r name f hr) name offer
  | deregister name =>
      change P (r.deregister name).registry
      rcases r.deregister_inversion name with ⟨-, hreply⟩ | ⟨f, -, hreply⟩
      · rwa [hreply]
      · rw [hreply]
        exact hdrop name rfl
  | create name =>
      change P (r.create name).registry
      rcases r.create_inversion name with ⟨-, hreply⟩ |
        ⟨f, hf, ⟨engine, -, hreply⟩ | ⟨e, -, -, hreply⟩ | ⟨engine, -, -, hreply⟩⟩
      · rwa [hreply]
      · rwa [hreply]
      · rwa [hreply]
      · rw [hreply]
        exact hbuilt name f engine rfl hf
  | get name => exact hr
  | contains name => exact hr
  | names => exact hr
  | size => exact hr
  | loadEntryPoints group entries => exact loadEntryPoints_induction hadd hr group entries

/-- No name stands twice, and no engine is kept under a name that is not registered. -/
structure Tidy (r : Registry) : Prop where
  nodup : (r.factories.map (·.1)).Nodup
  engines : ∀ name, assoc? name r.factories = none → assoc? name r.engines = none

theorem tidy_add {r : Registry} (hr : r.Tidy) {name : String}
    (hfree : assoc? name r.factories = none) (f : Factory) :
    Tidy { r with factories := r.factories ++ [(name, f)] } where
  nodup := by
    have hnew : name ∉ r.factories.map (·.1) := by
      rw [← assoc?_isSome_iff, hfree]
      simp
    rw [List.map_append, List.nodup_append]
    refine ⟨hr.nodup, List.nodup_singleton name, ?_⟩
    rintro other hother _ hname rfl
    rw [List.mem_singleton.mp hname] at hother
    exact hnew hother
  engines := by
    intro other hother
    apply hr.engines
    rw [assoc?_append] at hother
    exact (Option.or_eq_none_iff.mp hother).1

theorem tidy_drop {r : Registry} (hr : r.Tidy) (name : String) :
    Tidy { r with
      factories := dropKey name r.factories
      engines := dropKey name r.engines } where
  nodup := by
    rw [map_fst_dropKey]
    exact hr.nodup.filter _
  engines := by
    intro other hother
    by_cases h : name = other
    · rw [h]
      exact assoc?_dropKey_self other r.engines
    · rw [assoc?_dropKey_of_ne h] at hother ⊢
      exact hr.engines other hother

theorem tidy_called {r : Registry} (hr : r.Tidy) : Tidy { r with calls := r.calls + 1 } :=
  ⟨hr.nodup, hr.engines⟩

theorem tidy_built {r : Registry} (hr : r.Tidy) {name : String} {f : Factory}
    (hf : assoc? name r.factories = some f) (engine : Engine) :
    Tidy { r with calls := r.calls + 1, engines := r.engines ++ [(name, engine)] } where
  nodup := hr.nodup
  engines := by
    intro other hother
    have hne : name ≠ other := by
      rintro rfl
      rw [hf] at hother
      cases hother
    rw [assoc?_append_singleton_of_ne hne]
    exact hr.engines other hother

theorem tidy_register {r : Registry} (hr : r.Tidy) (name : String) (offer : Offer) :
    (r.register name offer).registry.Tidy :=
  register_induction hr (fun _ f hfree => tidy_add hr hfree f) name offer

theorem tidy_serve (r : Registry) (q : Request) (hr : r.Tidy) : (r.serve q).2.Tidy := by
  apply serve_induction q hr
  · intro r name f hr hfree
    exact tidy_add hr hfree f
  · intro name _
    exact tidy_drop hr name
  · exact tidy_called hr
  · intro name f engine _ hf
    exact tidy_built hr hf engine

theorem tidy_run (requests : List Request) : (server.run {} requests).Tidy := by
  apply Server.run_induction tidy_serve
  exact ⟨List.nodup_nil, fun _ _ => rfl⟩

end Registry

end LexicalPath
