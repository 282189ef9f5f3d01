import LexicalPath.BoundPath
import LexicalPath.Proofs.Registry.Standard

/-!
Scripts: bound paths made from texts and from one another, each kept for the steps to come. Whatever
the steps are and in whatever order they come, every path of a script is read back from its printed
form (`construct_print`).
-/

namespace LexicalPath

namespace Script

/-- What an operation is applied to, besides the path it is called on: a text, or the path that an
earlier step has made. -/
inductive Argument where
  | text (s : String)
  | result (of : Nat)

inductive Operation where
  | resolve
  /-- The operator that is short for resolving. -/
  | divide
  | resolveSibling
  | relativize

def Operation.apply : Operation → BoundPath → Operand → Except BoundError BoundPath
  | .resolve => BoundPath.resolve
  | .divide => BoundPath.resolve
  | .resolveSibling => BoundPath.resolveSibling
  | .relativize => BoundPath.relativize

/-- A step of a script. Paths of earlier steps are referred to by the position of the step. -/
inductive Step where
  | construct (text dialect : String)
  | parent (on : Nat)
  | normalize (on : Nat)
  | combine (operation : Operation) (on : Nat) (argument : Argument)

end Script

/-- The registry and, for every step so far, the path it has made. A step that fails, or refers to a
step without a path, has made none. -/
structure Script where
  registry : Registry := Registry.standard
  results : List (Option BoundPath) := []

namespace Script

def path? (s : Script) (index : Nat) : Option BoundPath :=
  s.results[index]?.join

def operand? (s : Script) : Argument → Option Operand
  | .text t => some (.text t)
  | .result index => (s.path? index).map .bound

def add (s : Script) (made : Option BoundPath) : Script :=
  { s with results := s.results ++ [made] }

def step (s : Script) : Step → Script
  | .construct text dialect =>
      let reply := s.registry.create dialect
      let made :=
        match reply.answer with
        | .error _ => none
        | .ok engine => (BoundPath.parse engine text).toOption
      { s with registry := reply.registry }.add made
  | .parent on => s.add ((s.path? on).bind BoundPath.parent?)
  | .normalize on => s.add ((s.path? on).bind fun b => b.normalize.toOption)
  | .combine operation on argument =>
      s.add ((s.path? on).bind fun b =>
        (s.operand? argument).bind fun operand => (operation.apply b operand).toOption)

def run (steps : List Step) : Script :=
  steps.foldl step {}

end Script

/-- The path is bound to the engine that a registry shares for a standard dialect, and is
well-formed in that dialect. -/
def BoundPath.SoundIn (r : Registry) (d : StandardDialect) (b : BoundPath) : Prop :=
  assoc? d.name r.engines = some b.engine ∧ d.WellFormed b.value

namespace BoundPath

variable {r : Registry} {d : StandardDialect} {b : BoundPath}

theorem SoundIn.dialect_eq (hr : r.IsStandard) (hb : b.SoundIn r d) :
    b.engine.dialect = d.dialect :=
  hr.dialect d b.engine hb.1

theorem SoundIn.with_value (hb : b.SoundIn r d) {value : Path} (h : d.WellFormed value) :
    SoundIn r d { b with value } :=
  ⟨hb.1, h⟩

theorem eq_of_toOption_map {value : Except PathError Path} {c : BoundPath}
    (h : (value.map fun value => { b with value }).toOption = some c) :
    ∃ v, value = .ok v ∧ c = { b with value := v } := by
  cases value with
  | error e => cases h
  | ok v => exact ⟨v, rfl, (Option.some.inj h).symm⟩

theorem SoundIn.parse {engine : Engine} (hr : r.IsStandard)
    (hengine : assoc? d.name r.engines = some engine) {text : String}
    (h : (BoundPath.parse engine text).toOption = some b) : b.SoundIn r d := by
  obtain ⟨v, hv, rfl⟩ := eq_of_toOption_map (b := ⟨engine, default⟩) h
  rw [hr.dialect d engine hengine] at hv
  exact ⟨hengine, StandardDialect.wellFormed_of_parse hv⟩

theorem SoundIn.parent (hb : b.SoundIn r d) {c : BoundPath} (h : b.parent? = some c) :
    c.SoundIn r d := by
  obtain ⟨v, hv, rfl⟩ := Option.map_eq_some_iff.mp h
  exact hb.with_value (StandardDialect.wellFormed_parent hb.2 hv)

theorem SoundIn.normalize (hr : r.IsStandard) (hb : b.SoundIn r d) {c : BoundPath}
    (h : b.normalize.toOption = some c) : c.SoundIn r d := by
  obtain ⟨v, hv, rfl⟩ := eq_of_toOption_map h
  rw [hb.dialect_eq hr] at hv
  exact hb.with_value (StandardDialect.wellFormed_normalize hb.2 hv)

/-- The operand is a text, or a path that is sound for some standard dialect. -/
def SoundOperand (r : Registry) : Operand → Prop
  | .text _ => True
  | .path _ => False
  | .bound c => ∃ e : StandardDialect, c.SoundIn r e

theorem SoundIn.operandValue (hr : r.IsStandard) (hb : b.SoundIn r d) {operand : Operand}
    (hoperand : SoundOperand r operand) {value : Path} (h : b.operandValue operand = .ok value) :
    d.WellFormed value := by
  cases operand with
  | text t =>
      rw [BoundPath.operandValue, hb.dialect_eq hr] at h
      cases hparse : d.dialect.parse t with
      | error e =>
          rw [hparse] at h
          cases h
      | ok v =>
          rw [hparse] at h
          obtain rfl := Except.ok.inj h
          exact StandardDialect.wellFormed_of_parse hparse
  | path p => exact hoperand.elim
  | bound c =>
      obtain ⟨e, hc⟩ := hoperand
      rw [BoundPath.operandValue] at h
      split at h
      · rename_i hid
        obtain rfl := Except.ok.inj h
        -- Engines are compared by identity, and that tells the dialect.
        obtain rfl := hr.distinct e d c.engine b.engine hc.1 hb.1 hid
        exact hc.2
      · cases h

theorem SoundIn.combine {operation : Dialect → Path → Path → Except PathError Path}
    (hoperation : ∀ {base other q : Path}, d.WellFormed base → d.WellFormed other →
      operation d.dialect base other = .ok q → d.WellFormed q)
    (hr : r.IsStandard) (hb : b.SoundIn r d) {operand : Operand}
    (hoperand : SoundOperand r operand) {c : BoundPath}
    (h : (b.combine operation operand).toOption = some c) : c.SoundIn r d := by
  rw [BoundPath.combine] at h
  split at h
  · cases h
  · rename_i other hother
    split at h
    · cases h
    · rename_i value hvalue
      obtain rfl := Option.some.inj h
      rw [hb.dialect_eq hr] at hvalue
      exact hb.with_value (hoperation hb.2 (hb.operandValue hr hoperand hother) hvalue)

theorem SoundIn.apply (hr : r.IsStandard) (hb : b.SoundIn r d) (operation : Script.Operation)
    {operand : Operand} (hoperand : SoundOperand r operand) {c : BoundPath}
    (h : (operation.apply b operand).toOption = some c) : c.SoundIn r d := by
  cases operation with
  | resolve => exact hb.combine StandardDialect.wellFormed_resolve hr hoperand h
  | divide => exact hb.combine StandardDialect.wellFormed_resolve hr hoperand h
  | resolveSibling => exact hb.combine StandardDialect.wellFormed_resolveSibling hr hoperand h
  | relativize =>
      exact hb.combine (fun _ hother => StandardDialect.wellFormed_relativize hother)
        hr hoperand h

end BoundPath

namespace Script

/-- What holds all along a script. -/
structure Sound (s : Script) : Prop where
  registry : s.registry.IsStandard
  results : ∀ b, some b ∈ s.results → ∃ d : StandardDialect, b.SoundIn s.registry d

theorem mem_of_path? {s : Script} {index : Nat} {b : BoundPath} (h : s.path? index = some b) :
    some b ∈ s.results := by
  exact List.mem_of_getElem? (Option.join_eq_some_iff.mp h)

theorem Sound.path? {s : Script} (hs : s.Sound) {index : Nat} {b : BoundPath}
    (h : s.path? index = some b) : ∃ d : StandardDialect, b.SoundIn s.registry d :=
  hs.results b (mem_of_path? h)

theorem Sound.operand? {s : Script} (hs : s.Sound) {argument : Argument} {operand : Operand}
    (h : s.operand? argument = some operand) : BoundPath.SoundOperand s.registry operand := by
  cases argument with
  | text t =>
      obtain rfl := Option.some.inj h
      trivial
  | result index =>
      obtain ⟨b, hb, rfl⟩ := Option.map_eq_some_iff.mp h
      exact hs.path? hb

theorem Sound.add {s : Script} (hs : s.Sound) {made : Option BoundPath}
    (hmade : ∀ b, made = some b → ∃ d : StandardDialect, b.SoundIn s.registry d) :
    (s.add made).Sound := by
  refine ⟨hs.registry, ?_⟩
  intro b hb
  rcases List.mem_append.mp hb with hb | hb
  · exact hs.results b hb
  · exact hmade b (List.mem_singleton.mp hb).symm

theorem Sound.create {s : Script} (hs : s.Sound) (name : String) :
    Sound { s with registry := (s.registry.create name).registry } := by
  refine ⟨Registry.isStandard_create hs.registry name, ?_⟩
  intro b hb
  obtain ⟨d, hengine, hvalue⟩ := hs.results b hb
  exact ⟨d, Registry.assoc?_create hs.registry name hengine, hvalue⟩

theorem Sound.step {s : Script} (hs : s.Sound) (step : Step) : (s.step step).Sound := by
  cases step with
  | construct text dialect =>
      apply (hs.create dialect).add
      intro b hb
      split at hb
      · cases hb
      · rename_i engine hanswer
        obtain ⟨d, -, hengine⟩ := Registry.assoc?_of_create_ok hs.registry hanswer
        exact ⟨d, BoundPath.SoundIn.parse (hs.create dialect).registry hengine hb⟩
  | parent on =>
      apply hs.add
      intro b hb
      obtain ⟨c, hc, hparent⟩ := Option.bind_eq_some_iff.mp hb
      obtain ⟨d, hd⟩ := hs.path? hc
      exact ⟨d, hd.parent hparent⟩
  | normalize on =>
      apply hs.add
      intro b hb
      obtain ⟨c, hc, hnormalize⟩ := Option.bind_eq_some_iff.mp hb
      obtain ⟨d, hd⟩ := hs.path? hc
      exact ⟨d, hd.normalize hs.registry hnormalize⟩
  | combine operation on argument =>
      apply hs.add
      intro b hb
      obtain ⟨c, hc, hb⟩ := Option.bind_eq_some_iff.mp hb
      obtain ⟨operand, hoperand, happly⟩ := Option.bind_eq_some_iff.mp hb
      obtain ⟨d, hd⟩ := hs.path? hc
      exact ⟨d, hd.apply hs.registry operation (hs.operand? hoperand) happly⟩

theorem sound_foldl {s : Script} (hs : s.Sound) (steps : List Step) :
    (steps.foldl step s).Sound := by
  induction steps generalizing s with
  | nil => exact hs
  | cons step rest ih => exact ih (hs.step step)

theorem sound_run (steps : List Step) : (run steps).Sound := by
  apply sound_foldl
  refine ⟨Registry.isStandard_standard, ?_⟩
  intro b hb
  cases hb

theorem construct_print_of_sound {s : Script} (hs : s.Sound) {index : Nat} {b : BoundPath}
    (hb : s.path? index = some b) :
    (s.step (.construct b.print b.engine.dialect.name)).results = s.results ++ [some b] := by
  obtain ⟨d, hd⟩ := hs.path? hb
  have hdialect := hd.dialect_eq hs.registry
  obtain ⟨hanswer, -⟩ := Registry.create_of_assoc? hs.registry hd.1
  have hparse : BoundPath.parse b.engine b.print = .ok b := by
    rw [BoundPath.parse, BoundPath.print, hdialect, StandardDialect.parse_print hd.2]
    rfl
  rw [hdialect, d.dialect_name, Script.step, hanswer]
  simp only [hparse, add, Except.toOption]

theorem same_iff_print_eq_of_sound {s : Script} (hs : s.Sound) {i j : Nat} {b c : BoundPath}
    (hb : s.path? i = some b) (hc : s.path? j = some c)
    (hname : b.engine.dialect.name = c.engine.dialect.name) :
    b.same c = true ↔ b.print = c.print := by
  obtain ⟨d, hd⟩ := hs.path? hb
  obtain ⟨e, he⟩ := hs.path? hc
  have hbdialect := hd.dialect_eq hs.registry
  have hcdialect := he.dialect_eq hs.registry
  rw [hbdialect, hcdialect, d.dialect_name, e.dialect_name] at hname
  obtain rfl := StandardDialect.name_injective hname
  -- The engine of a name is shared.
  have hengine : b.engine = c.engine := Option.some.inj (hd.1.symm.trans he.1)
  have hvalue : b.print = c.print ↔ b.value = c.value := by
    rw [BoundPath.print, BoundPath.print, hbdialect, hcdialect]
    exact StandardDialect.print_inj hd.2 he.2
  rw [hvalue, BoundPath.same, hengine]
  simp

/-- Reading the printed form of a path of a script makes that path again. So two paths of one
dialect are equal iff they are printed alike. -/
theorem construct_print (steps : List Step) {i : Nat} {b : BoundPath}
    (hb : (run steps).path? i = some b) :
    ((run steps).step (.construct b.print b.engine.dialect.name)).results =
        (run steps).results ++ [some b] ∧
      ∀ (j : Nat) (c : BoundPath), (run steps).path? j = some c →
        b.engine.dialect.name = c.engine.dialect.name →
          (b.same c = true ↔ b.print = c.print) := by
  refine ⟨construct_print_of_sound (sound_run steps) hb, ?_⟩
  intro j c hc hname
  exact same_iff_print_eq_of_sound (sound_run steps) hb hc hname

/-- A script whose fourth path is relative to the current directory of a drive, and whose path after
that leads out of two directories. -/
def excursion : List Step :=
  [.construct "C:tmp/../x" "windows", .construct "a/b" "unix",
    .combine .resolve 0 (.text "..\\y"), .normalize 2, .combine .relativize 2 (.result 0)]

theorem construct_print_excursion :
    ((run excursion).step (.construct "C:y" "windows")).results =
        (run excursion).results ++ [(run excursion).path? 3] ∧
      ∀ (j : Nat) (c : BoundPath), (run excursion).path? j = some c →
        "windows" = c.engine.dialect.name →
          (BoundPath.same ⟨⟨.built 0, Windows.dialect⟩, ⟨some "C:", ["y"]⟩⟩ c = true ↔
            "C:y" = c.print) := by
  have hpath : (run excursion).path? 3 =
      some ⟨⟨.built 0, Windows.dialect⟩, ⟨some "C:", ["y"]⟩⟩ := rfl
  exact construct_print excursion hpath

end Script

end LexicalPath
