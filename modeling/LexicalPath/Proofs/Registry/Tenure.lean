import LexicalPath.Proofs.Registry.Ledger

/-!
The tenure of a factory: the requests since it was put under a name that is not taken out again. In
the meantime the factory is called each time that an engine is asked for under the name, until it
gives one, and that engine is the answer from then on (`Tenure.buildsOnce`).
-/

namespace LexicalPath

def Event.asksFor (name : String) (e : Event) : Bool :=
  match e.request with
  | .create other => other == name
  | _ => false

theorem Event.asksFor_iff (name : String) (e : Event) :
    e.asksFor name = true ↔ e.request = .create name := by
  rw [asksFor]
  split
  · rename_i other hrequest
    rw [hrequest, beq_iff_eq, Request.create.injEq]
  · rename_i hother
    constructor
    · intro h
      cases h
    · intro h
      exact (hother name h).elim

/-- What a factory call with a number leads to where the engine under a name is asked for: an engine
if the call returns one, or a dialect to build one for, and an error otherwise. -/
inductive Outcome.LeadsTo (name : String) (call : Nat) :
    Outcome → Except RegistryError Engine → Prop where
  | dialect (d : Dialect) : LeadsTo name call (.dialect d) (.ok ⟨.built call, d⟩)
  | engine (engine : Engine) : LeadsTo name call (.engine engine) (.ok engine)
  | other (text : String) : LeadsTo name call (.other (.ok text)) (.error (.notEngine name text))
  | unshown (e : Raised) : LeadsTo name call (.other (.error e)) (.error (.raised e))
  | failure (e : Raised) : LeadsTo name call (.failure e) (.error (.raised e))

theorem Outcome.leadsTo_iff (o : Outcome) (name : String) (call : Nat)
    (made : Except RegistryError Engine) : o.LeadsTo name call made ↔ o.made name call = made := by
  constructor
  · intro h
    cases h <;> rfl
  · rintro rfl
    cases o with
    | dialect d => exact .dialect d
    | engine engine => exact .engine engine
    | other shown =>
        cases shown with
        | ok text => exact .other text
        | error e => exact .unshown e
    | failure e => exact .failure e

/-- One factory call, whose outcome is the answer. -/
structure Event.Calls (e : Event) (f : Factory) (name : String)
    (made : Except RegistryError Engine) : Prop where
  outcome : (f.call e.callsBefore).LeadsTo name e.callsBefore made
  answer : e.answer = made.map .engine
  calls : e.callsAfter = e.callsBefore + 1

/-- No factory call, and an engine as the answer. -/
structure Event.Shares (e : Event) (engine : Engine) : Prop where
  answer : e.answer = .ok (.engine engine)
  calls : e.callsAfter = e.callsBefore

/-- The events, at which an engine was asked for, call the factory until it gives one. That is the
engine kept in the end, and all later events share it. -/
def Factory.BuildsOnce (f : Factory) (name : String) (events : List Event) : Option Engine → Prop
  | none => ∀ e ∈ events, ∃ error, e.Calls f name (.error error)
  | some engine =>
      ∃ failed first shared, events = failed ++ first :: shared ∧
        (∀ e ∈ failed, ∃ error, e.Calls f name (.error error)) ∧
        first.Calls f name (.ok engine) ∧ ∀ e ∈ shared, e.Shares engine

namespace Factory.BuildsOnce

variable {f : Factory} {name : String} {events : List Event} {e : Event}

theorem failed (h : f.BuildsOnce name events none) {error : RegistryError}
    (he : e.Calls f name (.error error)) : f.BuildsOnce name (events ++ [e]) none := by
  intro other hother
  rcases List.mem_append.mp hother with hother | hother
  · exact h other hother
  · rw [List.mem_singleton.mp hother]
    exact ⟨error, he⟩

theorem built (h : f.BuildsOnce name events none) {engine : Engine}
    (he : e.Calls f name (.ok engine)) : f.BuildsOnce name (events ++ [e]) (some engine) :=
  ⟨events, e, [], rfl, h, he, by simp⟩

theorem shared {engine : Engine} (h : f.BuildsOnce name events (some engine))
    (he : e.Shares engine) : f.BuildsOnce name (events ++ [e]) (some engine) := by
  obtain ⟨failed, first, shared, rfl, hfailed, hfirst, hshared⟩ := h
  refine ⟨failed, first, shared ++ [e], by simp, hfailed, hfirst, ?_⟩
  intro other hother
  rcases List.mem_append.mp hother with hother | hother
  · exact hshared other hother
  · rwa [List.mem_singleton.mp hother]

end Factory.BuildsOnce

namespace Registry

theorem factories_create (r : Registry) (name : String) :
    (r.create name).registry.factories = r.factories := by
  rcases r.create_inversion name with ⟨-, hreply⟩ |
    ⟨f, -, ⟨engine, -, hreply⟩ | ⟨e, -, -, hreply⟩ | ⟨engine, -, -, hreply⟩⟩ <;> rw [hreply]

theorem assoc?_factories_serve {r : Registry} {name : String} {f : Factory}
    (hf : assoc? name r.factories = some f) {q : Request} (hq : q ≠ .deregister name) :
    assoc? name (r.serve q).2.factories = some f := by
  apply serve_induction (P := fun r => assoc? name r.factories = some f) q hf
  · intro r other g hf _
    rw [assoc?_append, hf, Option.some_or]
  · rintro other rfl
    have hne : other ≠ name := by
      rintro rfl
      exact hq rfl
    rwa [assoc?_dropKey_of_ne hne]
  · exact hf
  · intro _ _ _ _ _
    exact hf

theorem assoc?_factories_deregister (r : Registry) (name : String) :
    assoc? name (r.deregister name).registry.factories = none := by
  rcases r.deregister_inversion name with ⟨hfree, hreply⟩ | ⟨f, -, hreply⟩
  · rwa [hreply]
  · rw [hreply]
    exact assoc?_dropKey_self name r.factories

theorem assoc?_engines_serve (r : Registry) {name : String} {q : Request}
    (hcreate : q ≠ .create name) (hderegister : q ≠ .deregister name) :
    assoc? name (r.serve q).2.engines = assoc? name r.engines := by
  apply serve_induction (P := fun next => assoc? name next.engines = assoc? name r.engines) q rfl
  · intro next _ _ hnext _
    exact hnext
  · rintro other rfl
    have hne : other ≠ name := by
      rintro rfl
      exact hderegister rfl
    exact assoc?_dropKey_of_ne hne r.engines
  · rfl
  · rintro other _ engine rfl _
    have hne : other ≠ name := by
      rintro rfl
      exact hcreate rfl
    exact assoc?_append_singleton_of_ne hne engine r.engines

theorem buildsOnce_serve {r : Registry} {name : String} {f : Factory} {events : List Event}
    (hf : assoc? name r.factories = some f)
    (h : f.BuildsOnce name events (assoc? name r.engines)) {q : Request}
    (hq : q ≠ .deregister name) :
    f.BuildsOnce name (events ++ [server.event r q].filter (·.asksFor name))
      (assoc? name (r.serve q).2.engines) := by
  have hasks : (server.event r q).asksFor name = true ↔ q = .create name :=
    (server.event r q).asksFor_iff name
  by_cases hcreate : q = .create name
  · rw [List.filter_cons_of_pos (hasks.mpr hcreate), List.filter_nil]
    subst hcreate
    have hevent : server.event r (.create name) =
        ⟨.create name, (r.create name).answer.map .engine, r.calls,
          (r.create name).registry.calls⟩ := rfl
    rw [hevent, serve]
    rcases r.create_inversion name with ⟨hfree, -⟩ |
      ⟨g, hg, ⟨engine, hengine, hreply⟩ | ⟨e, hnone, hmade, hreply⟩ |
        ⟨engine, hnone, hmade, hreply⟩⟩
    · rw [hf] at hfree
      cases hfree
    · rw [hengine] at h
      rw [hreply, hengine]
      exact h.shared ⟨rfl, rfl⟩
    · obtain rfl : f = g := Option.some.inj (hf.symm.trans hg)
      rw [hnone] at h
      rw [hreply, hnone]
      exact h.failed ⟨(Outcome.leadsTo_iff _ _ _ _).mpr hmade, rfl, rfl⟩
    · obtain rfl : f = g := Option.some.inj (hf.symm.trans hg)
      rw [hnone] at h
      rw [hreply, assoc?_append_singleton_self hnone]
      exact h.built ⟨(Outcome.leadsTo_iff _ _ _ _).mpr hmade, rfl, rfl⟩
  · rw [List.filter_cons_of_neg (fun h => hcreate (hasks.mp h)), List.filter_nil, List.append_nil,
      assoc?_engines_serve r hcreate hq]
    exact h

/-- The request puts the factory under the name, which was free before, and since then the name is
not taken out. -/
structure Tenure (name : String) (f : Factory) (before : List Request) (request : Request)
    (since : List Request) : Prop where
  free : (server.run {} before).contains name = false
  registered : (server.run {} (before ++ [request])).get name = .ok f
  kept : Request.deregister name ∉ since

/-- The events, since then, at which the engine under the name is asked for. -/
def creations (name : String) (before : List Request) (request : Request) (since : List Request) :
    List Event :=
  (server.events (server.run {} (before ++ [request])) since).filter (·.asksFor name)

theorem run_append_singleton (r : Registry) (requests : List Request) (q : Request) :
    server.run r (requests ++ [q]) = ((server.run r requests).serve q).2 :=
  server.run_append r requests [q]

theorem exists_tenure_of_get (requests : List Request) {name : String} {f : Factory}
    (h : (server.run {} requests).get name = .ok f) :
    ∃ before request since, requests = before ++ request :: since ∧
      Tenure name f before request since := by
  induction requests using List.reverseRecOn with
  | nil => cases h
  | append_singleton requests q ih =>
      cases hbefore : assoc? name (server.run {} requests).factories with
      | none =>
          refine ⟨requests, q, [], rfl, ?_, h, List.not_mem_nil⟩
          rw [contains, hbefore]
          rfl
      | some g =>
          rw [run_append_singleton, get_eq_ok_iff] at h
          have hq : q ≠ .deregister name := by
            rintro rfl
            have hgone := assoc?_factories_deregister (server.run {} requests) name
            rw [serve, hgone] at h
            cases h
          have hsame := assoc?_factories_serve hbefore hq
          rw [h] at hsame
          rw [get_eq_ok_iff, hbefore, hsame] at ih
          obtain ⟨before, request, since, rfl, htenure⟩ := ih rfl
          refine ⟨before, request, since ++ [q], by simp, htenure.free, htenure.registered, ?_⟩
          rw [List.mem_append, List.mem_singleton]
          rintro (hsince | rfl)
          · exact htenure.kept hsince
          · exact hq rfl

namespace Tenure

variable {name : String} {f : Factory} {before since : List Request} {request : Request}

theorem assoc?_engines_start (h : Tenure name f before request []) :
    assoc? name (server.run {} (before ++ [request])).engines = none := by
  have hfree : assoc? name (server.run {} before).factories = none := by
    simpa [contains] using h.free
  have hregistered := (get_eq_ok_iff _ _ _).mp h.registered
  rw [run_append_singleton] at hregistered ⊢
  rw [assoc?_engines_serve]
  · exact (tidy_run before).engines name hfree
  · rintro rfl
    rw [serve, factories_create, hfree] at hregistered
    cases hregistered
  · rintro rfl
    rw [serve, assoc?_factories_deregister] at hregistered
    cases hregistered

theorem of_append {q : Request} (h : Tenure name f before request (since ++ [q])) :
    Tenure name f before request since :=
  ⟨h.free, h.registered, fun hsince => h.kept (List.mem_append_left _ hsince)⟩

theorem get_eq (h : Tenure name f before request since) :
    (server.run {} (before ++ request :: since)).get name = .ok f := by
  induction since using List.reverseRecOn with
  | nil => exact h.registered
  | append_singleton since q ih =>
      have hq : q ≠ .deregister name := by
        rintro rfl
        exact h.kept (by simp)
      have hf := (get_eq_ok_iff _ _ _).mp (ih h.of_append)
      rw [get_eq_ok_iff, ← List.cons_append, ← List.append_assoc, run_append_singleton]
      exact assoc?_factories_serve hf hq

theorem buildsOnce (h : Tenure name f before request since) :
    f.BuildsOnce name (creations name before request since)
      (assoc? name (server.run {} (before ++ request :: since)).engines) := by
  induction since using List.reverseRecOn with
  | nil =>
      rw [h.assoc?_engines_start]
      intro e he
      cases he
  | append_singleton since q ih =>
      have ih := ih h.of_append
      have hf := (get_eq_ok_iff _ _ _).mp h.of_append.get_eq
      have hrun : server.run (server.run {} (before ++ [request])) since =
          server.run {} (before ++ request :: since) := by
        rw [← Server.run_append, List.append_assoc, List.singleton_append]
      rw [← List.cons_append, ← List.append_assoc, run_append_singleton]
      rw [creations, Server.events_append, List.filter_append, hrun]
      refine buildsOnce_serve hf ih ?_
      rintro rfl
      exact h.kept (by simp)

end Tenure

/-- A registry is not told from a ledger. The names that it keeps engines under are registered. A
factory stands under a name when it has a tenure that lasts, and in its tenure it builds one engine
at most, which is what is kept. -/
theorem served_like_ledger (requests : List Request) :
    server.events {} requests = Ledger.server.events {} requests ∧
      (∀ name engine, assoc? name (server.run {} requests).engines = some engine →
        (server.run {} requests).contains name = true) ∧
      (∀ name f, (server.run {} requests).get name = .ok f ↔
        ∃ before request since, requests = before ++ request :: since ∧
          Tenure name f before request since) ∧
      ∀ name f before request since, requests = before ++ request :: since →
        Tenure name f before request since →
        f.BuildsOnce name (creations name before request since)
          (assoc? name (server.run {} requests).engines) := by
  refine ⟨events_eq requests, ?_, ?_, ?_⟩
  · intro name engine hengine
    rw [contains, Option.isSome_iff_ne_none]
    intro hfree
    rw [(tidy_run requests).engines name hfree] at hengine
    cases hengine
  · intro name f
    constructor
    · exact exists_tenure_of_get requests
    · rintro ⟨before, request, since, rfl, htenure⟩
      exact htenure.get_eq
  · rintro name f before request since rfl htenure
    exact htenure.buildsOnce

/-- A factory that fails at the first two calls of all. -/
def lateFactory : Factory :=
  ⟨1, .ok "create_late_engine", fun call =>
    if call < 2 then .failure (.failure "not ready") else .dialect Unix.dialect⟩

/-- A name that had an engine, was taken out, and is registered again. -/
theorem served_like_ledger_registered_again :
    let before : List Request :=
      [.registerFactory "unix" (.factory (unixFactory 0)), .create "unix", .deregister "unix"]
    let request : Request := .registerFactory "unix" (.factory lateFactory)
    let since : List Request := [.create "unix", .create "unix", .create "unix"]
    Tenure "unix" lateFactory before request since ∧
      assoc? "unix" (server.run {} (before ++ request :: since)).engines =
        some ⟨.built 2, Unix.dialect⟩ ∧
      lateFactory.BuildsOnce "unix" (creations "unix" before request since)
        (some ⟨.built 2, Unix.dialect⟩) := by
  intro before request since
  have htenure : Tenure "unix" lateFactory before request since := by
    refine ⟨rfl, rfl, ?_⟩
    simp [since]
  refine ⟨htenure, rfl, ?_⟩
  exact (served_like_ledger (before ++ request :: since)).2.2.2 _ _ _ _ _ rfl htenure

end Registry

end LexicalPath
