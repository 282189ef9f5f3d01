import LexicalPath.Proofs.Command.Outcome
import LexicalPath.Proofs.Command.Result
import LexicalPath.Proofs.Command.Words
import LexicalPath.Proofs.Registry.Loading

namespace LexicalPath.Command

/-- The name of the dialect that is asked for. -/
def Given.dialectName (g : Given) : String :=
  (g.value? "--syntax").getD standardDialect

namespace Operation

def onPaths : List Operation :=
  [parse, normalize, resolve, resolveSibling, relativize]

/-- The form that is asked for: the first one of the operation if none is named, and otherwise the
one that is named. Capital letters do not matter. -/
def AsksFor (o : Operation) (g : Given) (f : Format) : Prop :=
  match g.value? "--format" with
  | none => o.formats.head? = some f
  | some word => f ∈ o.formats ∧ word.toList.map Signature.foldLetter = f.word.toList

/-- The words behind the name of the operation call it as it is to be called, with what is given. -/
structure Takes (o : Operation) (words : List String) (g : Given) (f : Format) : Prop where
  onPaths : o ∈ onPaths
  spelled : o.signature.Spells words g
  arguments : g.arguments.length = o.arguments.length
  format : o.AsksFor g f
  unhelped : g.has "--help" = false

/-! ### The form that is asked for -/

theorem choice?_of_mem {choices : List String} {choice word : String} (hchoice : choice ∈ choices)
    (hword : word.toList.map Signature.foldLetter = choice.toList) :
    Signature.choice? choices word = some choice := by
  rw [Signature.choice?, hword]
  cases hfind : choices.find? fun c => c.toList = choice.toList with
  | none => exact absurd (List.find?_eq_none.mp hfind choice hchoice) (by simp)
  | some c =>
      have heq : c.toList = choice.toList := by simpa using List.find?_some hfind
      rw [String.toList_inj.mp heq]

theorem ofWord?_word (f : Format) : Format.ofWord? f.word = some f := by
  cases f <;> decide

variable {o : Operation} {words : List String} {g : Given} {f : Format}

theorem choice?_of_asksFor (h : o.AsksFor g f) {word : String}
    (hvalue : g.value? "--format" = some word) :
    Signature.choice? (o.formats.map Format.word) word = some f.word := by
  unfold AsksFor at h
  rw [hvalue] at h
  obtain ⟨hf, hword⟩ := h
  exact choice?_of_mem (List.mem_map_of_mem hf) hword

theorem format_eq (h : o.AsksFor g f) : o.format g = f := by
  rw [format]
  cases hvalue : g.value? "--format" with
  | none =>
      unfold AsksFor at h
      rw [hvalue] at h
      simp [List.headD_eq_head?_getD, h]
  | some word =>
      rw [Option.bind_some, choice?_of_asksFor h hvalue]
      simp only [ofWord?_word, Option.getD_some]

theorem eq_format_or_choices_eq_nil {option : CommandOption}
    (h : option ∈ o.options) : option = .format o.formats ∨ option.choices = [] := by
  revert option
  cases o <;> decide

theorem badChoice?_eq_none (h : o.AsksFor g f) : o.signature.badChoice? g = none := by
  rw [Signature.badChoice?, List.findSome?_eq_none_iff]
  intro option hoption
  cases hvalue : g.value? option.long with
  | none => rfl
  | some word =>
      rcases eq_format_or_choices_eq_nil hoption with rfl | hchoices
      · have hchoice : Signature.choice? (CommandOption.format o.formats).choices word =
            some f.word := choice?_of_asksFor h hvalue
        simp [hchoice]
      · simp [hchoices]

theorem Takes.check (h : o.Takes words g f) : o.signature.check g = .ok () := by
  have hpasses : o.signature.passesOn = false := rfl
  have harguments : o.signature.arguments.length = g.arguments.length := h.arguments.symm
  rw [Signature.check, badChoice?_eq_none h.format]
  simp [hpasses, Signature.checkArguments, harguments, List.drop_eq_nil_of_le]

/-! ### What a call computes -/

/-- What an operation on paths computes from the texts that it is given. They are read in their
order, then the operation is applied, and what is resolved is normalized if that is asked for. -/
def computed (o : Operation) (d : Dialect) (g : Given) : Except PathError Path :=
  match o, g.arguments with
  | .parse, [text] => d.parse text
  | .normalize, [text] => do
      let p ← d.parse text
      d.normalize p
  | .resolve, [base, other] => do
      let first ← d.parse base
      let second ← d.parse other
      let p ← d.resolve first second
      if g.has "--normalize" then d.normalize p else return p
  | .resolveSibling, [base, other] => do
      let first ← d.parse base
      let second ← d.parse other
      let p ← d.resolveSibling first second
      if g.has "--normalize" then d.normalize p else return p
  | .relativize, [base, other] => do
      let first ← d.parse base
      let second ← d.parse other
      d.relativize first second
  | _, _ => return Path.empty

theorem result_of_text (d : Dialect) {text : String} (htext : g.arguments = [text]) :
    o.result d g = (do
      let p ← d.parse text
      let q ← o.apply d p Path.empty
      if g.has "--normalize" then d.normalize q else return q) := by
  rw [result, htext]
  simp only [List.mapM_cons, List.mapM_nil, bind_assoc, pure_bind]
  rfl

theorem result_of_texts (d : Dialect) {base other : String} (htexts : g.arguments = [base, other]) :
    o.result d g = (do
      let first ← d.parse base
      let second ← d.parse other
      let q ← o.apply d first second
      if g.has "--normalize" then d.normalize q else return q) := by
  rw [result, htexts]
  simp only [List.mapM_cons, List.mapM_nil, bind_assoc, pure_bind]
  rfl

theorem has_eq_false_of_spells {long : String} (h : o.signature.Spells words g)
    (hlong : ∀ option ∈ o.options, option.long ≠ long) : g.has long = false := by
  rw [Given.has, List.any_eq_false]
  intro given hgiven
  simpa using hlong given.1 (h.mem_options given hgiven)

theorem Takes.result_eq_computed (h : o.Takes words g f) (d : Dialect) :
    o.result d g = o.computed d g := by
  have harguments := h.arguments
  have hplain (hlong : ∀ option ∈ o.options, option.long ≠ "--normalize") :=
    has_eq_false_of_spells h.spelled hlong
  cases o with
  | parse =>
      obtain ⟨text, htext⟩ := List.length_eq_one_iff.mp harguments
      rw [result_of_text d htext, hplain (by decide)]
      simp only [computed, htext]
      exact bind_pure _
  | normalize =>
      obtain ⟨text, htext⟩ := List.length_eq_one_iff.mp harguments
      rw [result_of_text d htext, hplain (by decide)]
      simp only [computed, htext]
      exact congrArg _ (funext fun p => bind_pure _)
  | resolve =>
      obtain ⟨base, other, htexts⟩ := List.length_eq_two.mp harguments
      rw [result_of_texts d htexts]
      simp only [computed, htexts]
      rfl
  | resolveSibling =>
      obtain ⟨base, other, htexts⟩ := List.length_eq_two.mp harguments
      rw [result_of_texts d htexts]
      simp only [computed, htexts]
      rfl
  | relativize =>
      obtain ⟨base, other, htexts⟩ := List.length_eq_two.mp harguments
      rw [result_of_texts d htexts, hplain (by decide)]
      simp only [computed, htexts]
      exact congrArg _ (funext fun first => congrArg _ (funext fun second => bind_pure _))
  | dialects => exact absurd h.onPaths (by decide)
  | version => exact absurd h.onPaths (by decide)

theorem Takes.wellFormed (h : o.Takes words g f) {d : StandardDialect} {p : Path}
    (hp : o.computed d.dialect g = .ok p) : d.WellFormed p :=
  wellFormed_of_result ((h.result_eq_computed d.dialect).trans hp)

theorem Takes.isOfPath (h : o.Takes words g f) {d : StandardDialect} {e : PathError}
    (he : o.computed d.dialect g = .error e) : e.isOfPath = true :=
  isOfPath_of_result ((h.result_eq_computed d.dialect).trans he)

end Operation

/-! ### Running -/

/-- Loading entry points beside the standard dialects: what it raises, the registry with their
dialects, and what was logged. -/
def loaded (entries : List EntryPoint) : Reply Unit :=
  Registry.standard.loadEntryPoints EntryPoint.dialectGroup entries

theorem answer_loaded_nil : (loaded []).answer = .ok () :=
  rfl

section

variable (host : Host) (entries : List EntryPoint)

theorem ofName?_name (o : Operation) : Operation.ofName? o.name = some o := by
  cases o <;> decide

theorem readWords_operation (o : Operation) (words : List String) :
    programSignature.readWords {} (o.name :: words) = .ok { arguments := o.name :: words } := by
  have hword : o.name ≠ "--" ∧ Signature.isOptionWord o.name.toList = false := by
    cases o <;> decide
  have hpasses : programSignature.passesOn = true := rfl
  rw [Signature.readWords, if_neg hword.1, if_neg (by simp [hword.2]), if_pos hpasses]
  rfl

theorem loadAndCall_of_loaded {entries : List EntryPoint} (h : (loaded entries).answer = .ok ())
    (verbose : Bool) (o : Operation) (words : List String) :
    loadAndCall host entries verbose o words =
      (call host (loaded entries).registry o words).after
        (logMessages verbose (loaded entries).log) := by
  unfold loaded at h ⊢
  rw [loadAndCall, h]

theorem run_of_readWords {line words : List String} {options : List (CommandOption × String)}
    {o : Operation}
    (hline : programSignature.readWords {} line = .ok { options, arguments := o.name :: words }) :
    run host entries line =
      (shownAtOnce? { options }).getD
        (loadAndCall host entries (Given.has { options } "--verbose") o words) := by
  have hne : line.isEmpty = false := by
    cases line with
    | nil => cases hline
    | cons word rest => rfl
  have hshown : shownAtOnce? { options, arguments := o.name :: words } =
      shownAtOnce? { options } := rfl
  rw [run, hne, if_neg Bool.false_ne_true, hline]
  simp only [hshown]
  cases shownAtOnce? { options } with
  | some outcome => rfl
  | none =>
      simp only [ofName?_name]
      rfl

theorem runOperation_of_onPaths {o : Operation} (ho : o ∈ Operation.onPaths) (r : Registry)
    (g : Given) : runOperation host r o g = runOnPaths host r o g := by
  cases o with
  | dialects => simp [Operation.onPaths] at ho
  | version => simp [Operation.onPaths] at ho
  | _ => rfl

/-- The outcome of a result in a form: it is shown, or written to a file. -/
def outcomeOf (d : Dialect) (f : Format) (output : Option String) :
    Except PathError Path → Outcome
  | .error e => pathOutcome host e
  | .ok p =>
      match f with
      | .table =>
          match d.isAbsolute p with
          | .error e => pathOutcome host e
          | .ok absolute => .table (pathTable host.console d p absolute)
      | f => deliver host output (written d f p)

theorem outcomeOf_of_ne_table {f : Format} (hf : f ≠ .table) (d : Dialect) (output : Option String)
    (p : Path) : outcomeOf host d f output (.ok p) = deliver host output (written d f p) := by
  cases f with
  | table => exact absurd rfl hf
  | _ => rfl

theorem exists_outcomeOf_table (d : StandardDialect) (p : Path) : ∃ stdout, ∀ output,
    outcomeOf host d.dialect .table output (.ok p) = { stdout } := by
  obtain ⟨absolute, habsolute⟩ := d.exists_isAbsolute p
  obtain ⟨stdout, htable⟩ := exists_pathTable host.console d.dialect p absolute
  refine ⟨stdout, fun output => ?_⟩
  simp only [outcomeOf, habsolute, htable]

theorem runOnPaths_of_offersStandard {r : Registry} (hr : r.OffersStandard) (o : Operation)
    {g : Given} {d : StandardDialect} (hd : g.dialectName = d.name) :
    runOnPaths host r o g =
      outcomeOf host d.dialect (o.format g) (g.value? "--output") (o.result d.dialect g) := by
  obtain ⟨engine, hcreate, hengine⟩ := Registry.exists_create_of_offersStandard hr d
  rw [Given.dialectName] at hd
  rw [runOnPaths, hd, hcreate]
  simp only [hengine]
  cases o.result d.dialect g with
  | error e => rfl
  | ok p => cases o.format g <;> rfl

variable {o : Operation} {words : List String} {g : Given} {f : Format}

section

variable {entries : List EntryPoint} (hloaded : (loaded entries).answer = .ok ())

include hloaded

theorem run_of_takes (h : o.Takes words g f) :
    run host entries (o.name :: words) =
      (runOnPaths host (loaded entries).registry o g).after
        (logMessages false (loaded entries).log) := by
  have hread := (Signature.clear_signature o).readWords_spells rfl h.spelled
  rw [run_of_readWords host entries (readWords_operation o words)]
  change loadAndCall host entries false o words = _
  rw [loadAndCall_of_loaded host hloaded, call, hread]
  simp only [h.unhelped, h.check, runOperation_of_onPaths host h.onPaths]
  rfl

/-- With a standard dialect, a call comes to the outcome of what it computes. -/
theorem run_eq_outcomeOf (h : o.Takes words g f) {d : StandardDialect}
    (hd : g.dialectName = d.name) :
    run host entries (o.name :: words) =
      (outcomeOf host d.dialect f (g.value? "--output") (o.computed d.dialect g)).after
        (logMessages false (loaded entries).log) := by
  have hoffers : (loaded entries).registry.OffersStandard :=
    Registry.offersStandard_loaded EntryPoint.dialectGroup entries
  rw [run_of_takes host hloaded h, runOnPaths_of_offersStandard host hoffers o hd,
    Operation.format_eq h.format, h.result_eq_computed d.dialect]

end

end

end LexicalPath.Command
