import LexicalPath.Proofs.Command.Call
import LexicalPath.Proofs.Command.Forms

namespace LexicalPath.Command

/-! ### A file among the options -/

section

variable {before after : List (CommandOption × String)} {arguments : List String} {name : String}

theorem value?_with_output {long : String} (h : CommandOption.output.long ≠ long) :
    Given.value? ⟨before ++ (.output, name) :: after, arguments⟩ long =
      Given.value? ⟨before ++ after, arguments⟩ long := by
  simp [Given.value?, List.find?_append, h]

theorem has_with_output {long : String} (h : CommandOption.output.long ≠ long) :
    Given.has ⟨before ++ (.output, name) :: after, arguments⟩ long =
      Given.has ⟨before ++ after, arguments⟩ long := by
  simp [Given.has, h]

theorem value?_output (h : Given.value? ⟨before ++ after, arguments⟩ "--output" = none) :
    Given.value? ⟨before ++ (.output, name) :: after, arguments⟩ "--output" = some name := by
  simp only [Given.value?, List.reverse_append, List.find?_append, Option.map_eq_none_iff,
    Option.or_eq_none_iff] at h
  simp [Given.value?, List.find?_append, h.1, CommandOption.output]

theorem takes_with_output {o : Operation} {words kept : List String} {f : Format}
    (h : o.Takes words ⟨before ++ after, arguments⟩ f)
    (hkept : o.signature.Spells kept ⟨before ++ (.output, name) :: after, arguments⟩) :
    o.Takes kept ⟨before ++ (.output, name) :: after, arguments⟩ f where
  onPaths := h.onPaths
  spelled := hkept
  arguments := h.arguments
  format := by
    rw [Operation.AsksFor, value?_with_output (by decide)]
    exact h.format
  unhelped := by
    rw [has_with_output (by decide)]
    exact h.unhelped

theorem computed_with_output (o : Operation) (d : Dialect) :
    o.computed d ⟨before ++ (.output, name) :: after, arguments⟩ =
      o.computed d ⟨before ++ after, arguments⟩ := by
  simp only [Operation.computed, has_with_output (by decide : "--output" ≠ "--normalize")]

end

variable {host : Host} {entries : List EntryPoint} {o : Operation} {words : List String}
  {f : Format} {d : StandardDialect}

theorem exists_computed_of_exit (hloaded : (loaded entries).answer = .ok ()) {g : Given}
    (h : o.Takes words g f) (hd : g.dialectName = d.name)
    (hexit : (run host entries (o.name :: words)).exit = 0) :
    ∃ p, o.computed d.dialect g = .ok p := by
  cases hcomputed : o.computed d.dialect g with
  | ok p => exact ⟨p, rfl⟩
  | error e =>
      obtain ⟨stderr, houtcome⟩ := pathOutcome_of_isOfPath host (h.isOfPath hcomputed)
      have hfails : (run host entries (o.name :: words)).exit = 1 := by
        rw [run_eq_outcomeOf host hloaded h hd, hcomputed, outcomeOf, houtcome]
        rfl
      rw [hfails] at hexit
      cases hexit

/-! ### What is printed -/

theorem printed_text (p : Path) :
    printed (written d.dialect .text p ++ "\n") = printed (d.dialect.print p) ++ "\n" :=
  printed_append_lineFeed (d.dialect.print p)

theorem parse_printed_eq_ok_iff {p : Path} (hp : d.WellFormed p) :
    d.dialect.parse (printed (d.dialect.print p)) = .ok p ↔
      ¬ HoldsSequence (d.dialect.print p).toList := by
  constructor
  · intro hparse hsequence
    -- A control sequence takes its escape character with it, and reading brings none in.
    have hkept := StandardDialect.count_print_le (c := escapeChar) (by decide) hparse
    have hlost := count_printed_lt hsequence
    omega
  · intro hfree
    rw [(printed_eq_self_iff _).mpr hfree]
    exact StandardDialect.parse_print hp

/-- A call that succeeds prints as text what it has computed, without the control sequences, and
this text is read as the same path just where there are none. -/
theorem parse_printed_iff (hloaded : (loaded entries).answer = .ok ()) {g : Given}
    (h : o.Takes words g .text) (hd : g.dialectName = d.name)
    (houtput : g.value? "--output" = none)
    (hexit : (run host entries (o.name :: words)).exit = 0) :
    ∃ p, o.computed d.dialect g = .ok p ∧
      (run host entries (o.name :: words)).stdout = printed (d.dialect.print p) ++ "\n" ∧
      (d.dialect.parse (printed (d.dialect.print p)) = .ok p ↔
        ¬ HoldsSequence (d.dialect.print p).toList) := by
  obtain ⟨p, hcomputed⟩ := exists_computed_of_exit hloaded h hd hexit
  refine ⟨p, hcomputed, ?_, parse_printed_eq_ok_iff (h.wellFormed hcomputed)⟩
  rw [run_eq_outcomeOf host hloaded h hd, hcomputed, houtput, ← printed_text]
  rfl

theorem parse_printed_iff_sequence :
    (run .unlimited [] ["normalize", "--", "a\x1b[mb"]).exit = 0 ∧
      ∃ p, Operation.normalize.computed Unix.dialect { arguments := ["a\x1b[mb"] } = .ok p ∧
        (run .unlimited [] ["normalize", "--", "a\x1b[mb"]).stdout =
          printed (Unix.dialect.print p) ++ "\n" ∧
        (Unix.dialect.parse (printed (Unix.dialect.print p)) = .ok p ↔
          ¬ HoldsSequence (Unix.dialect.print p).toList) := by
  have h : Operation.normalize.Takes ["--", "a\x1b[mb"] { arguments := ["a\x1b[mb"] } .text :=
    ⟨by decide, .ended ["a\x1b[mb"], rfl, rfl, by decide⟩
  have hexit : (run .unlimited [] ["normalize", "--", "a\x1b[mb"]).exit = 0 := by decide +kernel
  exact ⟨hexit, parse_printed_iff (d := .unix) answer_loaded_nil h rfl rfl hexit⟩

theorem printed_loses_sequence :
    (run .unlimited [] ["normalize", "--", "a\x1b[mb"]).exit = 0 ∧
      (run .unlimited [] ["normalize", "--", "a\x1b[mb"]).stdout = "ab\n" ∧
      Operation.normalize.computed Unix.dialect { arguments := ["a\x1b[mb"] } =
        .ok ⟨none, ["a\x1b[mb"]⟩ ∧
      Unix.dialect.parse "ab" = .ok ⟨none, ["ab"]⟩ :=
  ⟨by decide +kernel, by decide +kernel, rfl, rfl⟩

/-! ### What is kept in a file -/

/-- With a file to write to that takes the text, a call that succeeds otherwise succeeds, prints
nothing, and keeps what it prints otherwise, with the control sequences that are left out there.
Only a table is printed all the same, and no file is written. -/
theorem kept_as_printed (hloaded : (loaded entries).answer = .ok ())
    {before after : List (CommandOption × String)} {arguments : List String}
    (h : o.Takes words ⟨before ++ after, arguments⟩ f)
    (hd : Given.dialectName ⟨before ++ after, arguments⟩ = d.name)
    (hnone : Given.value? ⟨before ++ after, arguments⟩ "--output" = none)
    {kept : List String} {name : String}
    (hkept : o.signature.Spells kept ⟨before ++ (.output, name) :: after, arguments⟩)
    (hname : name ≠ "")
    (hstored : f ≠ .table → ∀ p, o.computed d.dialect ⟨before ++ after, arguments⟩ = .ok p →
      host.storage name (written d.dialect f p ++ "\n") = .stored)
    (hexit : (run host entries (o.name :: words)).exit = 0) :
    (run host entries (o.name :: kept)).exit = 0 ∧
      (run host entries (o.name :: kept)).unexpected = none ∧
      (f = .table →
        (run host entries (o.name :: kept)).stdout = (run host entries (o.name :: words)).stdout ∧
          (run host entries (o.name :: kept)).file = none) ∧
      (f ≠ .table →
        (run host entries (o.name :: kept)).stdout = "" ∧
        ∃ p, o.computed d.dialect ⟨before ++ after, arguments⟩ = .ok p ∧
          (run host entries (o.name :: kept)).file =
            some (name, written d.dialect f p ++ "\n") ∧
          (run host entries (o.name :: words)).stdout =
            printed (written d.dialect f p ++ "\n") ∧
          (printed (written d.dialect f p ++ "\n") = written d.dialect f p ++ "\n" ↔
            ¬ HoldsSequence (written d.dialect f p ++ "\n").toList) ∧
          (f = .json ∨ f = .yaml →
            printed (written d.dialect f p ++ "\n") = written d.dialect f p ++ "\n")) := by
  obtain ⟨p, hcomputed⟩ := exists_computed_of_exit hloaded h hd hexit
  have hwords := run_eq_outcomeOf host hloaded h hd
  have hd' : Given.dialectName ⟨before ++ (.output, name) :: after, arguments⟩ = d.name := by
    rw [← hd, Given.dialectName, Given.dialectName, value?_with_output (by decide)]
  have hrun := run_eq_outcomeOf host hloaded (takes_with_output h hkept) hd'
  rw [hcomputed, hnone] at hwords
  rw [computed_with_output, hcomputed, value?_output hnone] at hrun
  by_cases hf : f = .table
  · subst hf
    obtain ⟨stdout, htable⟩ := exists_outcomeOf_table host d p
    rw [htable] at hwords hrun
    rw [hwords, hrun]
    exact ⟨rfl, rfl, fun _ => ⟨rfl, rfl⟩, fun hne => absurd rfl hne⟩
  · obtain ⟨stderr, hdeliver⟩ := deliver_of_file hname (hstored hf p hcomputed)
    rw [outcomeOf_of_ne_table host hf, hdeliver] at hrun
    rw [outcomeOf_of_ne_table host hf] at hwords
    rw [hwords, hrun]
    exact ⟨rfl, rfl, fun htable => absurd htable hf, fun _ => ⟨rfl, p, hcomputed, rfl, rfl,
      printed_eq_self_iff _, fun hform => printed_written hform d.dialect p⟩⟩

theorem kept_as_printed_yaml :
    (run .emptyDirectory [] ["resolve", "--format", "yaml", "-n", "--", "a", "../b"]).exit = 0 ∧
      (run .emptyDirectory []
          ["resolve", "--format", "yaml", "-o", "kept", "-n", "--", "a", "../b"]).file =
        some ("kept", (run .emptyDirectory []
          ["resolve", "--format", "yaml", "-n", "--", "a", "../b"]).stdout) := by
  have hformat : Operation.resolve.signature.Gives ["--format", "yaml"]
      [(.format [.text, .json, .yaml], "yaml")] :=
    .one (by decide) (.long rfl "yaml")
  have houtput : Operation.resolve.signature.Gives ["-o", "kept"] [(.output, "kept")] :=
    .one (by decide) (.short rfl rfl "kept")
  have hnormalize : Operation.resolve.signature.Gives ["-n"] [(.normalize, "")] :=
    .one (by decide) (.shortFlag rfl rfl)
  have h : Operation.resolve.Takes ["--format", "yaml", "-n", "--", "a", "../b"]
      ⟨[(.format [.text, .json, .yaml], "yaml")] ++ [(.normalize, "")], ["a", "../b"]⟩ .yaml :=
    ⟨by decide, .options hformat (.options hnormalize (.ended ["a", "../b"])), rfl,
      ⟨by decide, by decide⟩, by decide⟩
  have hkept : Operation.resolve.signature.Spells
      ["--format", "yaml", "-o", "kept", "-n", "--", "a", "../b"]
      ⟨[(.format [.text, .json, .yaml], "yaml")] ++ (.output, "kept") :: [(.normalize, "")],
        ["a", "../b"]⟩ :=
    .options hformat (.options houtput (.options hnormalize (.ended ["a", "../b"])))
  -- What is written has no part in whether it is stored in an empty directory.
  have hstored : Storage.emptyDirectory "kept" "" = .stored := by decide +kernel
  have hexit : (run .emptyDirectory []
      ["resolve", "--format", "yaml", "-n", "--", "a", "../b"]).exit = 0 := by decide +kernel
  obtain ⟨-, -, -, hfile⟩ := kept_as_printed (d := .unix) answer_loaded_nil h rfl rfl hkept
    (by decide) (fun _ _ _ => hstored) hexit
  obtain ⟨-, p, -, hwritten, hprinted, -, hsame⟩ := hfile (by decide)
  have htext := (hsame (.inr rfl)).symm.trans hprinted.symm
  exact ⟨hexit, hwritten.trans (congrArg (fun text => some ("kept", text)) htext)⟩

theorem kept_ne_printed :
    ((run .unlimited [] ["parse", "-o", "kept", "--", "a"]).exit = 0 ∧
      (run .unlimited [] ["parse", "-o", "kept", "--", "a"]).file = none) ∧
    (run .unlimited [] ["normalize", "--", "a\x1b[mb"]).stdout = "ab\n" ∧
      (run .unlimited [] ["normalize", "-o", "kept", "--", "a\x1b[mb"]).file =
        some ("kept", "a\x1b[mb\n") := by
  have hfront : Operation.parse.signature.Gives ["-o", "kept"] [(.output, "kept")] :=
    .one (by decide) (.short rfl rfl "kept")
  have h : Operation.parse.Takes ["-o", "kept", "--", "a"]
      { options := [(.output, "kept")], arguments := ["a"] } .table :=
    ⟨by decide, .options hfront (.ended ["a"]), rfl, rfl, by decide⟩
  have hcomputed : Operation.parse.computed StandardDialect.unix.dialect
      { options := [(.output, "kept")], arguments := ["a"] } = .ok ⟨none, ["a"]⟩ := rfl
  have hrun := run_eq_outcomeOf .unlimited answer_loaded_nil h (d := .unix) rfl
  obtain ⟨stdout, htable⟩ := exists_outcomeOf_table .unlimited .unix ⟨none, ["a"]⟩
  rw [hcomputed, htable] at hrun
  change run .unlimited [] ["parse", "-o", "kept", "--", "a"] = _ at hrun
  rw [hrun]
  exact ⟨⟨rfl, rfl⟩, by decide +kernel, by decide +kernel⟩

end LexicalPath.Command
