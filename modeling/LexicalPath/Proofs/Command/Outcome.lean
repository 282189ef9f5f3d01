import LexicalPath.Command.Run
import LexicalPath.Proofs.Display.Markup

namespace LexicalPath.Command

open Markup (IsStyle IsPlain AreChars styled)

theorem isStyle_red : IsStyle "red".toList where
  starts := by decide
  letters := by simp
  trimmed := by decide
  normalForm := by decide +kernel
  defined := by decide +kernel

theorem isStyle_green : IsStyle "green".toList where
  starts := by decide
  letters := by simp
  trimmed := by decide
  normalForm := by decide +kernel
  defined := by decide +kernel

theorem isStyle_bold : IsStyle "bold".toList where
  starts := by decide
  letters := by simp
  trimmed := by decide
  normalForm := by decide +kernel
  defined := by decide +kernel

theorem message_styled (host : Host) {style behind : List Char} (hstyle : IsStyle style)
    (words plain : List Char) (hwords : IsPlain words) (hplain : IsPlain plain)
    (hbehind : AreChars (Markup.pieces 0 .outside behind)) {markup : String}
    (hmarkup : markup.toList = styled style words ++ (plain ++ behind)) (exit : Nat) :
    ∃ stderr, Outcome.message host exit markup = { exit, stderr } := by
  obtain ⟨shown, hshown⟩ :=
    Markup.render_styled host.console.emoji hstyle hwords
      (Markup.areChars_plain_append hplain hbehind)
  rw [Outcome.message, hmarkup, hshown]
  exact ⟨_, rfl⟩

theorem pathOutcome_of_isOfPath (host : Host) {e : PathError} (h : e.isOfPath = true) :
    ∃ stderr, pathOutcome host e = { exit := 1, stderr } := by
  have hescaped := Markup.areChars_pieces_escape e.message.toList
  have hrejected : ∃ stderr,
      Outcome.message host 1 ("[red]Invalid path[/red]: " ++ escape e.message) =
        { exit := 1, stderr } :=
    message_styled host isStyle_red "Invalid path".toList ": ".toList
      (by decide) (by decide) hescaped (by simp [styled, escape]) 1
  have hunfit : ∃ stderr, Outcome.message host 1 ("[red]Error:[/red] " ++ escape e.message) =
      { exit := 1, stderr } :=
    message_styled host isStyle_red "Error:".toList " ".toList
      (by decide) (by decide) hescaped (by simp [styled, escape]) 1
  cases e with
  | invalidName path name => exact hrejected
  | incompleteNetworkRoot path text => exact hrejected
  | rootedRelative base other => exact hunfit
  | incompatibleRoots base other => exact hunfit
  | emptySeparator => cases h
  | decisionFailed decision => cases h

theorem exists_pathTable (console : Display.Console) (d : Dialect) (p : Path) (absolute : Bool) :
    ∃ stdout, Outcome.table (pathTable console d p absolute) = { stdout } := by
  have hlabel (words : List Char) (hwords : IsPlain words) :
      ∃ shown, Markup.render console.emoji (styled "bold".toList words) = .ok shown := by
    have hbehind : AreChars (Markup.pieces 0 .outside []) := Markup.areChars_nil
    simpa using Markup.render_styled console.emoji isStyle_bold hwords hbehind
  have hescape (s : String) :
      ∃ shown, Markup.render console.emoji (escape s).toList = .ok shown := by
    simpa [escape] using Markup.render_escape console.emoji s.toList
  have hword : ∃ shown,
      Markup.render console.emoji (if absolute then "yes" else "no").toList = .ok shown := by
    cases absolute <;> exact ⟨_, rfl⟩
  obtain ⟨s, hs⟩ : ∃ s, pathTable console d p absolute = .ok s := by
    apply Display.exists_plainTable
    simp only [List.mem_cons, List.not_mem_nil, or_false, forall_eq_or_imp, forall_eq]
    exact ⟨⟨hlabel "Root".toList (by decide), hescape _⟩,
      ⟨hlabel "Names".toList (by decide), hescape _⟩,
      ⟨hlabel "Absolute".toList (by decide), hword⟩,
      ⟨hlabel "Canonical".toList (by decide), hescape _⟩⟩
  rw [hs]
  exact ⟨_, rfl⟩

theorem deliver_of_file {host : Host} {name text : String} (hname : name ≠ "")
    (hstored : host.storage name (text ++ "\n") = .stored) :
    ∃ stderr, deliver host (some name) text =
      { stderr, file := some (name, text ++ "\n") } := by
  obtain ⟨stderr, hmessage⟩ : ∃ stderr,
      Outcome.message host 0 ("[green]Written to[/green] " ++ escape name) =
        { exit := 0, stderr } :=
    message_styled host isStyle_green "Written to".toList " ".toList
      (by decide) (by decide) (Markup.areChars_pieces_escape name.toList)
      (by simp [styled, escape]) 0
  refine ⟨stderr, ?_⟩
  unfold deliver
  split
  · rename_i heq
    cases heq
  · rename_i heq
    exact absurd (Option.some.inj heq) hname
  · rename_i heq
    obtain rfl := Option.some.inj heq
    rw [hstored, hmessage]

end LexicalPath.Command
