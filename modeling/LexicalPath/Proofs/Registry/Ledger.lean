import Mathlib.Data.Finmap
import Mathlib.Data.Finset.Sort
import Mathlib.Data.String.Basic
import LexicalPath.Proofs.Registry.Run

/-!
Ledgers: registries that keep one record under each name, with the factory and, once there is one,
its engine. A registry keeps factories and engines apart and is not told from a ledger by any
requests (`events_eq`).
-/

namespace LexicalPath

structure Record where
  factory : Factory
  engine : Option Engine := none

structure Ledger where
  records : Finmap fun _ : String => Record := ∅
  calls : Nat := 0

namespace Ledger

def names (l : Ledger) : List String :=
  l.records.keys.sort (· ≤ ·)

def put (l : Ledger) (name : String) (record : Record) : Ledger :=
  { l with records := l.records.insert name record }

/-- A record is made before the factory is shown, and stays if that raises something. -/
def register (l : Ledger) (name : String) (offer : Offer) : Except RegistryError Unit × Ledger :=
  match l.records.lookup name, offer with
  | some _, _ => (.error (.alreadyRegistered name), l)
  | none, .value (.ok text) => (.error (.notCallable name text), l)
  | none, .value (.error e) => (.error (.raised e), l)
  | none, .factory f =>
      match f.label with
      | .ok _ => (.ok (), l.put name { factory := f })
      | .error e => (.error (.raised e), l.put name { factory := f })

def deregister (l : Ledger) (name : String) : Except RegistryError Unit × Ledger :=
  match l.records.lookup name with
  | none => (.error (.notRegistered name l.names), l)
  | some _ => (.ok (), { l with records := l.records.erase name })

def get (l : Ledger) (name : String) : Except RegistryError Factory :=
  match l.records.lookup name with
  | none => .error (.notRegistered name l.names)
  | some record => .ok record.factory

/-- Only a call that returns an engine, or a dialect to build one for, fills in the record. -/
def create (l : Ledger) (name : String) : Except RegistryError Engine × Ledger :=
  match l.records.lookup name with
  | none => (.error (.notRegistered name l.names), l)
  | some ⟨_, some engine⟩ => (.ok engine, l)
  | some ⟨f, none⟩ =>
      let called := { l with calls := l.calls + 1 }
      let keep (engine : Engine) := (.ok engine, called.put name ⟨f, some engine⟩)
      match f.call l.calls with
      | .dialect d => keep ⟨.built l.calls, d⟩
      | .engine engine => keep engine
      | .other (.ok text) => (.error (.notEngine name text), called)
      | .other (.error e) | .failure e => (.error (.raised e), called)

def registerAll (l : Ledger) : List (String × Offer) → Except RegistryError Unit × Ledger
  | [] => (.ok (), l)
  | (name, offer) :: rest =>
      match l.register name offer with
      | (.error e, next) => (.error e, next)
      | (.ok (), next) => next.registerAll rest

def fetch (l : Ledger) (e : EntryPoint) : Except RegistryError Offer × Ledger :=
  match l.registerAll e.registers with
  | (.error error, next) => (.error error, next)
  | (.ok (), next) => (e.load.mapError .raised, next)

def loadEntryPoint (l : Ledger) (e : EntryPoint) : Except RegistryError Unit × Ledger :=
  if (l.records.lookup e.name).isSome then (.ok (), l)
  else
    match l.fetch e with
    | (.error error, next) => (passed RegistryError.isError (.error error), next)
    | (.ok offer, next) =>
        (passed RegistryError.isUnfit (next.register e.name offer).1,
          (next.register e.name offer).2)

def loadEntryPoints (l : Ledger) (group : String) :
    List EntryPoint → Except RegistryError Unit × Ledger
  | [] => (.ok (), l)
  | e :: rest =>
      if e.group = group then
        match l.loadEntryPoint e with
        | (.error error, next) => (.error error, next)
        | (.ok (), next) => next.loadEntryPoints group rest
      else l.loadEntryPoints group rest

def serve (l : Ledger) : Request → Except RegistryError Answer × Ledger
  | .registerFactory name offer =>
      ((l.register name offer).1.map fun _ => .done, (l.register name offer).2)
  | .decorate name offer =>
      ((l.register name offer).1.map fun _ => .offer offer, (l.register name offer).2)
  | .deregister name => ((l.deregister name).1.map fun _ => .done, (l.deregister name).2)
  | .get name => ((l.get name).map .factory, l)
  | .create name => ((l.create name).1.map .engine, (l.create name).2)
  | .contains name => (.ok (.bool (l.records.lookup name).isSome), l)
  | .names => (.ok (.names l.names), l)
  | .size => (.ok (.size l.records.keys.card), l)
  | .loadEntryPoints group entries =>
      ((l.loadEntryPoints group entries).1.map fun _ => .done, (l.loadEntryPoints group entries).2)

def server : Server Ledger where
  serve := serve
  calls := Ledger.calls

end Ledger

namespace Registry

/-- The ledger has a record for each factory of the registry, with the engine kept for it. -/
structure Matches (r : Registry) (l : Ledger) : Prop where
  lookup : ∀ name, l.records.lookup name =
    (assoc? name r.factories).map fun f => ⟨f, assoc? name r.engines⟩
  calls : l.calls = r.calls

variable {r : Registry} {l : Ledger}

theorem Matches.mem_keys (h : r.Matches l) (name : String) :
    name ∈ l.records.keys ↔ name ∈ r.factories.map (·.1) := by
  rw [Finmap.mem_keys, ← Finmap.lookup_isSome, h.lookup, Option.isSome_map, assoc?_isSome_iff]

theorem Matches.perm (h : r.Matches l) (hr : r.Tidy) :
    (r.factories.map (·.1)).Perm (l.records.keys.sort (· ≤ ·)) := by
  rw [List.perm_ext_iff_of_nodup hr.nodup (Finset.sort_nodup _ _)]
  intro name
  rw [Finset.mem_sort, h.mem_keys]

theorem Matches.names_eq (h : r.Matches l) (hr : r.Tidy) : r.names = l.names := by
  have hsorted : r.names.Pairwise (· ≤ ·) := List.pairwise_mergeSort' (· ≤ ·) _
  have hperm : r.names.Perm l.names := (List.mergeSort_perm _ _).trans (h.perm hr)
  exact hperm.eq_of_pairwise (fun _ _ _ _ => le_antisymm) hsorted (Finset.pairwise_sort _ _)

theorem Matches.size_eq (h : r.Matches l) (hr : r.Tidy) : r.size = l.records.keys.card := by
  rw [size, ← Finset.length_sort (· ≤ ·), ← (h.perm hr).length_eq, List.length_map]

theorem Matches.add (h : r.Matches l) (hr : r.Tidy) {name : String}
    (hfree : assoc? name r.factories = none) (f : Factory) :
    Matches { r with factories := r.factories ++ [(name, f)] } (l.put name { factory := f }) where
  lookup := by
    intro other
    by_cases hname : other = name
    · -- What was kept for an earlier factory of the name is gone.
      subst hname
      rw [Ledger.put, Finmap.lookup_insert, assoc?_append_singleton_self hfree,
        hr.engines other hfree]
      rfl
    · rw [Ledger.put, Finmap.lookup_insert_of_ne _ hname,
        assoc?_append_singleton_of_ne (Ne.symm hname)]
      exact h.lookup other
  calls := h.calls

theorem Matches.drop (h : r.Matches l) (name : String) :
    Matches
      { r with
        factories := dropKey name r.factories
        engines := dropKey name r.engines }
      { l with records := l.records.erase name } where
  lookup := by
    intro other
    by_cases hname : other = name
    · subst hname
      rw [Finmap.lookup_erase, assoc?_dropKey_self, assoc?_dropKey_self]
      rfl
    · rw [Finmap.lookup_erase_ne hname, assoc?_dropKey_of_ne (Ne.symm hname),
        assoc?_dropKey_of_ne (Ne.symm hname)]
      exact h.lookup other
  calls := h.calls

theorem Matches.called (h : r.Matches l) :
    Matches { r with calls := r.calls + 1 } { l with calls := l.calls + 1 } :=
  ⟨h.lookup, congrArg (· + 1) h.calls⟩

theorem Matches.built (h : r.Matches l) {name : String} {f : Factory}
    (hf : assoc? name r.factories = some f) (hnone : assoc? name r.engines = none)
    (engine : Engine) :
    Matches { r with calls := r.calls + 1, engines := r.engines ++ [(name, engine)] }
      ({ l with calls := l.calls + 1 }.put name ⟨f, some engine⟩) where
  lookup := by
    intro other
    by_cases hname : other = name
    · subst hname
      rw [Ledger.put, Finmap.lookup_insert, assoc?_append_singleton_self hnone, hf]
      rfl
    · rw [Ledger.put, Finmap.lookup_insert_of_ne _ hname,
        assoc?_append_singleton_of_ne (Ne.symm hname)]
      exact h.lookup other
  calls := congrArg (· + 1) h.calls

theorem Matches.register (h : r.Matches l) (hr : r.Tidy) (name : String) (offer : Offer) :
    (r.register name offer).answer = (l.register name offer).1 ∧
      (r.register name offer).registry.Matches (l.register name offer).2 := by
  have hlookup := h.lookup name
  rcases r.register_inversion name offer with
    ⟨f, hf, hreply⟩ | ⟨shown, rfl, hfree, hreply⟩ | ⟨f, label, rfl, hfree, hlabel, hreply⟩ |
      ⟨f, e, rfl, hfree, hlabel, hreply⟩
  · rw [hf] at hlookup
    simp only [hreply, Ledger.register, hlookup]
    exact ⟨rfl, h⟩
  · rw [hfree] at hlookup
    simp only [hreply, Ledger.register, hlookup]
    cases shown <;> exact ⟨rfl, h⟩
  · rw [hfree] at hlookup
    simp only [hreply, Ledger.register, hlookup, Option.map_none, hlabel]
    exact ⟨trivial, h.add hr hfree f⟩
  · rw [hfree] at hlookup
    simp only [hreply, Ledger.register, hlookup, Option.map_none, hlabel]
    exact ⟨trivial, h.add hr hfree f⟩

theorem Matches.deregister (h : r.Matches l) (hr : r.Tidy) (name : String) :
    (r.deregister name).answer = (l.deregister name).1 ∧
      (r.deregister name).registry.Matches (l.deregister name).2 := by
  have hlookup := h.lookup name
  rcases r.deregister_inversion name with ⟨hfree, hreply⟩ | ⟨f, hf, hreply⟩
  · rw [hfree] at hlookup
    simp only [hreply, Ledger.deregister, hlookup, h.names_eq hr]
    exact ⟨rfl, h⟩
  · rw [hf] at hlookup
    simp only [hreply, Ledger.deregister, hlookup]
    exact ⟨rfl, h.drop name⟩

theorem Matches.get (h : r.Matches l) (hr : r.Tidy) (name : String) : r.get name = l.get name := by
  have hlookup := h.lookup name
  rw [Registry.get, Ledger.get]
  cases hf : assoc? name r.factories with
  | none =>
      rw [hf] at hlookup
      simp only [hlookup, h.names_eq hr, Option.map_none]
  | some f =>
      rw [hf] at hlookup
      simp only [hlookup, Option.map_some]

theorem create_of_unbuilt {name : String} {f : Factory}
    (hlookup : l.records.lookup name = some ⟨f, none⟩) :
    l.create name =
      match (f.call l.calls).made name l.calls with
      | .error e => (.error e, { l with calls := l.calls + 1 })
      | .ok engine => (.ok engine, { l with calls := l.calls + 1 }.put name ⟨f, some engine⟩) := by
  simp only [Ledger.create, hlookup]
  cases f.call l.calls with
  | dialect d => rfl
  | engine engine => rfl
  | other shown => cases shown <;> rfl
  | failure e => rfl

theorem Matches.create (h : r.Matches l) (hr : r.Tidy) (name : String) :
    (r.create name).answer = (l.create name).1 ∧
      (r.create name).registry.Matches (l.create name).2 := by
  have hlookup := h.lookup name
  rcases r.create_inversion name with ⟨hfree, hreply⟩ |
    ⟨f, hf, ⟨engine, hengine, hreply⟩ | ⟨e, hnone, hmade, hreply⟩ |
      ⟨engine, hnone, hmade, hreply⟩⟩
  · rw [hfree] at hlookup
    simp only [hreply, Ledger.create, hlookup, h.names_eq hr]
    exact ⟨rfl, h⟩
  · rw [hf, hengine] at hlookup
    simp only [hreply, Ledger.create, hlookup]
    exact ⟨rfl, h⟩
  · rw [hf, hnone] at hlookup
    rw [← h.calls] at hmade
    rw [hreply, create_of_unbuilt hlookup, hmade]
    exact ⟨rfl, h.called⟩
  · rw [hf, hnone] at hlookup
    rw [← h.calls] at hmade
    rw [hreply, create_of_unbuilt hlookup, hmade]
    exact ⟨rfl, h.built hf hnone engine⟩

theorem Matches.registerAll (h : r.Matches l) (hr : r.Tidy) (offers : List (String × Offer)) :
    (r.registerAll offers).answer = (l.registerAll offers).1 ∧
      (r.registerAll offers).registry.Matches (l.registerAll offers).2 := by
  induction offers generalizing r l with
  | nil => exact ⟨rfl, h⟩
  | cons entry rest ih =>
      obtain ⟨name, offer⟩ := entry
      obtain ⟨hanswer, hnext⟩ := h.register hr name offer
      rw [Registry.registerAll, Ledger.registerAll]
      cases hfirst : l.register name offer with
      | mk answer next =>
          rw [hfirst] at hanswer hnext
          cases answer with
          | error e =>
              rw [Reply.andThen_of_error hanswer]
              exact ⟨rfl, hnext⟩
          | ok _ =>
              rw [Reply.andThen_of_ok hanswer]
              exact ih hnext (tidy_register hr name offer)

theorem Matches.fetch (h : r.Matches l) (hr : r.Tidy) (e : EntryPoint) :
    (r.fetch e).answer = (l.fetch e).1 ∧ (r.fetch e).registry.Matches (l.fetch e).2 := by
  obtain ⟨hanswer, hnext⟩ := h.registerAll hr e.registers
  rw [Registry.fetch, Ledger.fetch]
  cases hregistered : l.registerAll e.registers with
  | mk answer next =>
      rw [hregistered] at hanswer hnext
      cases answer with
      | error error =>
          rw [Reply.andThen_of_error hanswer]
          exact ⟨rfl, hnext⟩
      | ok _ =>
          rw [Reply.andThen_of_ok hanswer]
          exact ⟨rfl, hnext⟩

theorem tidy_fetch (hr : r.Tidy) (e : EntryPoint) : (r.fetch e).registry.Tidy := by
  have hregistered : (r.registerAll e.registers).registry.Tidy :=
    registerAll_induction (fun _ _ f hr hfree => tidy_add hr hfree f) hr e.registers
  exact Reply.andThen_induction hregistered hregistered

theorem Matches.loadEntryPoint (h : r.Matches l) (hr : r.Tidy) (e : EntryPoint) :
    (r.loadEntryPoint e).answer = (l.loadEntryPoint e).1 ∧
      (r.loadEntryPoint e).registry.Matches (l.loadEntryPoint e).2 := by
  have hcontains : (l.records.lookup e.name).isSome = r.contains e.name := by
    rw [contains, h.lookup, Option.isSome_map]
  obtain ⟨hfetched, hnext⟩ := h.fetch hr e
  rw [Ledger.loadEntryPoint, hcontains]
  rcases r.loadEntryPoint_inversion e with
    ⟨hname, hanswer, hregistry⟩ | ⟨error, hname, hfetch, hanswer, hregistry⟩ |
      ⟨offer, hname, hfetch, hanswer, hregistry⟩
  · rw [hanswer, hregistry, if_pos hname]
    exact ⟨rfl, h⟩
  · rw [hanswer, hregistry, hname, if_neg Bool.false_ne_true]
    cases hl : l.fetch e with
    | mk answer next =>
        rw [hl] at hfetched hnext
        obtain rfl : .error error = answer := hfetch.symm.trans hfetched
        exact ⟨rfl, hnext⟩
  · rw [hanswer, hregistry, hname, if_neg Bool.false_ne_true]
    cases hl : l.fetch e with
    | mk answer next =>
        rw [hl] at hfetched hnext
        obtain rfl : .ok offer = answer := hfetch.symm.trans hfetched
        obtain ⟨hregistered, hlast⟩ := hnext.register (tidy_fetch hr e) e.name offer
        exact ⟨congrArg _ hregistered, hlast⟩

theorem tidy_loadEntryPoint (hr : r.Tidy) (e : EntryPoint) :
    (r.loadEntryPoint e).registry.Tidy :=
  loadEntryPoint_induction (fun _ _ f hr hfree => tidy_add hr hfree f) hr e

theorem Matches.loadEntryPoints (h : r.Matches l) (hr : r.Tidy) (group : String)
    (entries : List EntryPoint) :
    (r.loadEntryPoints group entries).answer = (l.loadEntryPoints group entries).1 ∧
      (r.loadEntryPoints group entries).registry.Matches (l.loadEntryPoints group entries).2 := by
  induction entries generalizing r l with
  | nil => exact ⟨rfl, h⟩
  | cons e rest ih =>
      rw [Registry.loadEntryPoints, Ledger.loadEntryPoints]
      by_cases hgroup : e.group = group
      · obtain ⟨hanswer, hnext⟩ := h.loadEntryPoint hr e
        rw [if_pos hgroup, if_pos hgroup]
        cases hfirst : l.loadEntryPoint e with
        | mk answer next =>
            rw [hfirst] at hanswer hnext
            cases answer with
            | error error =>
                rw [Reply.andThen_of_error hanswer]
                exact ⟨rfl, hnext⟩
            | ok _ =>
                rw [Reply.andThen_of_ok hanswer]
                exact ih hnext (tidy_loadEntryPoint hr e)
      · rw [if_neg hgroup, if_neg hgroup]
        exact ih h hr

theorem Matches.serve (h : r.Matches l) (hr : r.Tidy) (q : Request) :
    (r.serve q).1 = (l.serve q).1 ∧ (r.serve q).2.Matches (l.serve q).2 := by
  cases q with
  | registerFactory name offer =>
      obtain ⟨hanswer, hnext⟩ := h.register hr name offer
      exact ⟨congrArg (Except.map fun _ => Answer.done) hanswer, hnext⟩
  | decorate name offer =>
      obtain ⟨hanswer, hnext⟩ := h.register hr name offer
      exact ⟨congrArg (Except.map fun _ => Answer.offer offer) hanswer, hnext⟩
  | deregister name =>
      obtain ⟨hanswer, hnext⟩ := h.deregister hr name
      exact ⟨congrArg (Except.map fun _ => Answer.done) hanswer, hnext⟩
  | get name => exact ⟨congrArg (Except.map Answer.factory) (h.get hr name), h⟩
  | create name =>
      obtain ⟨hanswer, hnext⟩ := h.create hr name
      exact ⟨congrArg (Except.map Answer.engine) hanswer, hnext⟩
  | contains name =>
      refine ⟨?_, h⟩
      rw [Registry.serve, Ledger.serve, contains, h.lookup, Option.isSome_map]
  | names => exact ⟨congrArg (Except.ok ∘ Answer.names) (h.names_eq hr), h⟩
  | size => exact ⟨congrArg (Except.ok ∘ Answer.size) (h.size_eq hr), h⟩
  | loadEntryPoints group entries =>
      obtain ⟨hanswer, hnext⟩ := h.loadEntryPoints hr group entries
      exact ⟨congrArg (Except.map fun _ => Answer.done) hanswer, hnext⟩

theorem matches_empty : Matches {} {} where
  lookup := fun _ => Finmap.lookup_empty _
  calls := rfl

/-- From the start on, a registry and a ledger give the same answers, at the same numbers of factory
calls. -/
theorem events_eq (requests : List Request) :
    server.events {} requests = Ledger.server.events {} requests := by
  apply Server.events_eq_of_simulation (R := fun r l => r.Matches l ∧ r.Tidy)
  · rintro r l q ⟨h, hr⟩
    obtain ⟨hanswer, hnext⟩ := h.serve hr q
    refine ⟨?_, hnext, tidy_serve r q hr⟩
    change Event.mk q (r.serve q).1 r.calls (r.serve q).2.calls =
      Event.mk q (l.serve q).1 l.calls (l.serve q).2.calls
    rw [hanswer, h.calls, hnext.calls]
  · exact ⟨matches_empty, tidy_run []⟩

end Registry

end LexicalPath
