import LexicalPath.Proofs.Command.Call
import LexicalPath.Proofs.Registry.EntryPoints

namespace LexicalPath.Command

variable (host : Host)

/-- Where loading raises something all the same, the program ends with that, and no operation is
run. -/
theorem run_of_not_loaded {entries : List EntryPoint} {error : RegistryError}
    (h : (loaded entries).answer = .error error) {line words : List String}
    {options : List (CommandOption × String)} {o : Operation}
    (hline : programSignature.readWords {} line = .ok { options, arguments := o.name :: words }) :
    run host entries line =
      (shownAtOnce? { options }).getD ((unhandledOutcome error).after
        (logMessages (Given.has { options } "--verbose") (loaded entries).log)) := by
  rw [run_of_readWords host entries hline]
  unfold loaded at h ⊢
  rw [loadAndCall, h]

example :
    (run .unlimited
      [{ name := "leaves", group := EntryPoint.dialectGroup, load := .error (.exit 3) }]
      ["parse", "--", "a"]).exit = 3 := by
  decide +kernel

end LexicalPath.Command
