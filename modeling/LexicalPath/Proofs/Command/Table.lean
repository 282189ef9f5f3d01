import LexicalPath.Proofs.Command.Call
import LexicalPath.Proofs.Dialect.Codes
import LexicalPath.Proofs.Dialect.Controls
import LexicalPath.Proofs.Display.Cell
import LexicalPath.Proofs.Display.Escaped

namespace LexicalPath.Command

open Display (Styled cellLines padded pairLine plainTable_of_pairs widest)
open Markup (HoldsBareBracket endsWithOneBackslash shownAs)
open Text (IsShown)

/-! ### Texts in cells -/

theorem isShown_shownAs {s : List Char} (hs : IsShown s) : IsShown (shownAs s) :=
  fun c hc => hs c (Markup.mem_of_mem_shownAs hc)

theorem movesCursor_of_isPrintable {c : Char} (hc : Text.isPrintable c = true) :
    Markup.movesCursor c = false := by
  have hne {d : Char} (hd : Text.isPrintable d = false) : c ≠ d := Text.ne_of_isPrintable hc hd
  simp [Markup.movesCursor, hne (d := '\x07') (by decide), hne (d := '\x08') (by decide),
    hne (d := '\x0b') (by decide), hne (d := '\x0c') (by decide), hne (d := '\r') (by decide)]

theorem render_escape_of_isShown {emoji : Emoji.Table} (hemoji : emoji.HasPlainNames) {s : String}
    (hs : IsShown s.toList) (hfree : ¬ Emoji.HoldsCode emoji s.toList) :
    Markup.render emoji (escape s).toList = .ok (Styled.plain (shownAs s.toList)) := by
  rw [escape, String.toList_ofList]
  refine Markup.render_escape_eq ?_ ((Markup.holdsCode_shownAs hemoji _).not.mpr hfree)
  exact fun c hc => movesCursor_of_isPrintable (isShown_shownAs hs c hc)

/-- Texts in quotes do not end with a backslash, so that only brackets count. -/
theorem shownAs_quotedOption_eq_self_iff (s : Option String) :
    shownAs (Text.quotedOption s).toList = (Text.quotedOption s).toList ↔
      ¬ HoldsBareBracket (Text.quotedOption s).toList := by
  cases s with
  | none => decide
  | some s =>
      have hmark : Text.quoteMark s.toList ≠ '\\' := by
        rw [Text.quoteMark]
        split <;> decide
      rw [Text.quotedOption, Text.quoted, String.toList_ofList, Text.quotedChars]
      exact Markup.shownAs_append_eq_self_iff hmark _

theorem shownAs_quotedList_eq_self_iff (items : List String) :
    shownAs (Text.quotedList items).toList = (Text.quotedList items).toList ↔
      ¬ HoldsBareBracket (Text.quotedList items).toList := by
  rw [Text.quotedList, String.toList_append]
  exact Markup.shownAs_append_eq_self_iff (by decide) _

/-! ### The rows -/

def boldLabel (label : List Char) : Styled :=
  { chars := label, spans := [⟨0, label.length⟩] }

/-- The lines of a table of labels and texts. -/
def tableLines (rows : List (List Char × List Char)) : List Char :=
  rows.flatMap fun row => pairLine (widest (rows.map (·.1))) (widest (rows.map (·.2))) row.1 row.2

/-- What is shown of a path, under labels. -/
def shownRows (d : Dialect) (p : Path) (absolute : Bool) : List (List Char × List Char) :=
  [("Root".toList, shownAs (Text.quotedOption p.root).toList),
   ("Names".toList, shownAs (Text.quotedList p.names).toList),
   ("Absolute".toList, (if absolute then "yes" else "no").toList),
   ("Canonical".toList, shownAs (d.print p).toList)]

section

variable (d : Dialect) (p : Path) (absolute : Bool)

theorem labels_shownRows : (shownRows d p absolute).map (·.1) =
    ["Root".toList, "Names".toList, "Absolute".toList, "Canonical".toList] :=
  rfl

theorem widest_labels : widest ((shownRows d p absolute).map (·.1)) = 9 := by
  rw [labels_shownRows]
  decide +kernel

theorem cellLines_label {label : List Char} (h : label ∈ (shownRows d p absolute).map (·.1)) :
    IsShown label ∧ cellLines 9 (boldLabel label) = [' ' :: padded 9 label ++ [' ']] := by
  have hall : ∀ label ∈ ["Root".toList, "Names".toList, "Absolute".toList, "Canonical".toList],
      IsShown label ∧ cellLines 9 (boldLabel label) = [' ' :: padded 9 label ++ [' ']] := by
    decide +kernel
  exact hall label h

theorem isShown_shownRows (hp : IsShown (d.print p).toList) :
    ∀ row ∈ shownRows d p absolute, IsShown row.2 := by
  have hword : IsShown (if absolute then "yes" else "no").toList := by
    cases absolute <;> decide
  simp only [shownRows, List.forall_mem_cons, List.not_mem_nil, false_implies, implies_true,
    and_true]
  exact ⟨isShown_shownAs (Text.isShown_quotedOption p.root),
    isShown_shownAs (Text.isShown_quotedList p.names), hword, isShown_shownAs hp⟩

theorem widest_shownRows_pos : 0 < widest ((shownRows d p absolute).map (·.2)) := by
  have hmem : (if absolute then "yes" else "no").toList ∈ (shownRows d p absolute).map (·.2) := by
    simp [shownRows]
  refine Nat.lt_of_lt_of_le ?_ (Display.width_le_widest hmem)
  cases absolute <;> decide +kernel

def tableColumns (rows : List (List Char × List Char)) : Nat :=
  widest (rows.map (·.1)) + 2 + (widest (rows.map (·.2)) + 2)

theorem render_bold (emoji : Emoji.Table) (label : List Char)
    (h : label ∈ ["Root".toList, "Names".toList, "Absolute".toList, "Canonical".toList]) :
    Markup.render emoji (Markup.styled "bold".toList label) = .ok (boldLabel label) := by
  have hall : ∀ label ∈ ["Root".toList, "Names".toList, "Absolute".toList, "Canonical".toList],
      .char ':' ∉ Markup.pieces 0 .outside (Markup.styled "bold".toList label) ∧
        (Markup.render (fun _ => none) (Markup.styled "bold".toList label)).toOption =
          some (boldLabel label) := by
    decide +kernel
  obtain ⟨hcolon, hshown⟩ := hall label h
  rw [Markup.render_eq_of_not_mem emoji (fun _ => none) hcolon]
  exact Markup.eq_ok_of_toOption hshown

/-- No emoji code stands in what is shown of a path. -/
structure FreeOfCodes (emoji : Emoji.Table) (d : Dialect) (p : Path) : Prop where
  root : ¬ Emoji.HoldsCode emoji (Text.quotedOption p.root).toList
  names : ¬ Emoji.HoldsCode emoji (Text.quotedList p.names).toList
  canonical : ¬ Emoji.HoldsCode emoji (d.print p).toList

theorem pathTable_eq {console : Display.Console} (hemoji : console.emoji.HasPlainNames)
    (hp : IsShown (d.print p).toList) (hfree : FreeOfCodes console.emoji d p)
    (hholds : console.holds (tableColumns (shownRows d p absolute)) = true) :
    pathTable console d p absolute = .ok (tableLines (shownRows d p absolute)) := by
  have hroot : Markup.render console.emoji "[bold]Root[/bold]".toList =
      .ok (boldLabel "Root".toList) := render_bold console.emoji "Root".toList (by decide)
  have hnames : Markup.render console.emoji "[bold]Names[/bold]".toList =
      .ok (boldLabel "Names".toList) := render_bold console.emoji "Names".toList (by decide)
  have habsolute : Markup.render console.emoji "[bold]Absolute[/bold]".toList =
      .ok (boldLabel "Absolute".toList) := render_bold console.emoji "Absolute".toList (by decide)
  have hcanonical : Markup.render console.emoji "[bold]Canonical[/bold]".toList =
      .ok (boldLabel "Canonical".toList) := render_bold console.emoji "Canonical".toList (by decide)
  have hword : Markup.render console.emoji (if absolute then "yes" else "no").toList =
      .ok (Styled.plain (if absolute then "yes" else "no").toList) := by
    cases absolute <;> rfl
  rw [pathTable,
    plainTable_of_pairs ((shownRows d p absolute).map fun row => (boldLabel row.1, row.2)),
    tableLines, List.flatMap_map, List.map_map, List.map_map]
  · rfl
  · exact List.cons_ne_nil _ _
  · simp only [shownRows, List.map_cons, List.map_nil, hroot, hnames, habsolute, hcanonical, hword,
      render_escape_of_isShown hemoji hp hfree.canonical,
      render_escape_of_isShown hemoji (Text.isShown_quotedOption p.root) hfree.root,
      render_escape_of_isShown hemoji (Text.isShown_quotedList p.names) hfree.names]
  · intro pair hpair
    obtain ⟨row, hrow, rfl⟩ := List.mem_map.mp hpair
    rw [List.map_map]
    change IsShown row.1 ∧ cellLines (widest ((shownRows d p absolute).map (·.1))) _ =
      [' ' :: padded (widest ((shownRows d p absolute).map (·.1))) row.1 ++ [' ']]
    rw [widest_labels]
    exact cellLines_label d p absolute (List.mem_map_of_mem hrow)
  · intro pair hpair
    obtain ⟨row, hrow, rfl⟩ := List.mem_map.mp hpair
    exact isShown_shownRows d p absolute hp row hrow
  · rw [List.map_map]
    exact widest_shownRows_pos d p absolute
  · rw [List.map_map, List.map_map]
    exact hholds

end

/-! ### The command -/

variable {words : List String} {g : Given} {d : StandardDialect} {text : String} {p : Path}

theorem freeOfCodes_of_parse {emoji : Emoji.Table} (hemoji : emoji.HasPlainNames)
    (htext : IsShown text.toList) (hfree : ¬ Emoji.HoldsCode emoji text.toList)
    (hp : d.dialect.parse text = .ok p) : FreeOfCodes emoji d.dialect p := by
  obtain ⟨hcanonical, hroot, hnames⟩ := Emoji.not_holdsCode_of_parse hemoji hp hfree
  obtain ⟨hrootShown, hnamesShown⟩ :=
    StandardDialect.isShown_parts (StandardDialect.isShown_print htext hp)
  refine ⟨?_, ?_, hcanonical⟩
  · rwa [Emoji.holdsCode_quotedOption hemoji hrootShown]
  · rw [Emoji.holdsCode_quotedList hemoji hnamesShown]
    rintro ⟨name, hname, hcode⟩
    exact hnames name hname hcode

theorem computed_parse (harguments : g.arguments = [text]) (d : Dialect) :
    Operation.parse.computed d g = d.parse text := by
  simp only [Operation.computed, harguments]

variable (host : Host) {entries : List EntryPoint}

theorem run_parse (hloaded : (loaded entries).answer = .ok ())
    (hemoji : host.console.emoji.HasPlainNames) (h : Operation.parse.Takes words g .table)
    (hd : g.dialectName = d.name) (harguments : g.arguments = [text])
    (htext : IsShown text.toList) (hfree : ¬ Emoji.HoldsCode host.console.emoji text.toList)
    (hp : d.dialect.parse text = .ok p) {absolute : Bool}
    (habsolute : d.dialect.isAbsolute p = .ok absolute)
    (hholds : host.console.holds (tableColumns (shownRows d.dialect p absolute)) = true) :
    run host entries (Operation.parse.name :: words) =
      ({ stdout := String.ofList (tableLines (shownRows d.dialect p absolute)) } : Outcome).after
        (logMessages false (loaded entries).log) := by
  have htable := pathTable_eq d.dialect p absolute hemoji (StandardDialect.isShown_print htext hp)
    (freeOfCodes_of_parse hemoji htext hfree hp) hholds
  have houtcome : outcomeOf host d.dialect .table (g.value? "--output") (.ok p) =
      { stdout := String.ofList (tableLines (shownRows d.dialect p absolute)) } := by
    rw [outcomeOf]
    simp only [habsolute]
    rw [htable, Outcome.table]
  rw [run_eq_outcomeOf host hloaded h hd, computed_parse harguments, hp, houtcome]

/-- The table shows the root, the names and the path as it is written, on one line each, but for two
things. A backslash directly in front of an opening bracket that starts no tag is not shown, and in
the written path one that stands alone at the end is shown twice. Otherwise all is shown as it is,
where the text holds no emoji code and the lines are not too long. -/
theorem parse_shows_table (hloaded : (loaded entries).answer = .ok ())
    (hemoji : host.console.emoji.HasPlainNames) (h : Operation.parse.Takes words g .table)
    (hd : g.dialectName = d.name) (harguments : g.arguments = [text])
    (htext : IsShown text.toList) (hfree : ¬ Emoji.HoldsCode host.console.emoji text.toList)
    (hp : d.dialect.parse text = .ok p)
    (hholds : ∀ absolute,
      host.console.holds (tableColumns (shownRows d.dialect p absolute)) = true) :
    ∃ absolute, d.dialect.isAbsolute p = .ok absolute ∧
      (run host entries (Operation.parse.name :: words)).exit = 0 ∧
      (run host entries (Operation.parse.name :: words)).unexpected = none ∧
      (run host entries (Operation.parse.name :: words)).stdout = String.ofList (tableLines
        [("Root".toList, shownAs (Text.quotedOption p.root).toList),
         ("Names".toList, shownAs (Text.quotedList p.names).toList),
         ("Absolute".toList, (if absolute then "yes" else "no").toList),
         ("Canonical".toList, shownAs (d.dialect.print p).toList)]) ∧
      (shownAs (Text.quotedOption p.root).toList = (Text.quotedOption p.root).toList ↔
        ¬ HoldsBareBracket (Text.quotedOption p.root).toList) ∧
      (shownAs (Text.quotedList p.names).toList = (Text.quotedList p.names).toList ↔
        ¬ HoldsBareBracket (Text.quotedList p.names).toList) ∧
      (shownAs (d.dialect.print p).toList = (d.dialect.print p).toList ↔
        endsWithOneBackslash (d.dialect.print p).toList = false ∧
          ¬ HoldsBareBracket (d.dialect.print p).toList) := by
  obtain ⟨absolute, habsolute⟩ := d.exists_isAbsolute p
  rw [run_parse host hloaded hemoji h hd harguments htext hfree hp habsolute (hholds absolute)]
  exact ⟨absolute, habsolute, rfl, rfl, rfl, shownAs_quotedOption_eq_self_iff p.root,
    shownAs_quotedList_eq_self_iff p.names, Markup.shownAs_eq_self_iff _⟩

theorem takes_parse (text : String) :
    Operation.parse.Takes ["--", text] { arguments := [text] } .table :=
  ⟨by decide, .ended [text], rfl, rfl, rfl⟩

theorem takes_parse_windows (text : String) :
    Operation.parse.Takes ["-s", "windows", "--", text]
      { options := [(.dialect, "windows")], arguments := [text] } .table := by
  have hsyntax : Operation.parse.signature.Gives ["-s", "windows"] [(.dialect, "windows")] :=
    .one (by decide) (.short rfl rfl "windows")
  exact ⟨by decide, .options hsyntax (.ended [text]), rfl, rfl, rfl⟩

/-- A host with a console of eighty columns that knows one emoji. -/
def smiling : Host where
  storage := .unlimited
  console :=
    { emoji := fun name => if name = "smile".toList then some ['😄'] else none
      columns := some 80 }

theorem hasPlainNames_smiling : smiling.console.emoji.HasPlainNames := by
  intro name hname
  obtain rfl : name = ['s', 'm', 'i', 'l', 'e'] := by simpa [smiling] using hname
  simp [Emoji.breaks]

theorem parse_shows_table_brackets :
    IsShown "C:\\a[b]\\[1]".toList ∧
      Windows.dialect.parse "C:\\a[b]\\[1]" = .ok ⟨some "C:\\", ["a[b]", "[1]"]⟩ ∧
      (run smiling [] ["parse", "-s", "windows", "--", "C:\\a[b]\\[1]"]).stdout =
        String.ofList (tableLines
          [("Root".toList, "'C:\\\\'".toList), ("Names".toList, "['a[b]', '[1]']".toList),
           ("Absolute".toList, "yes".toList), ("Canonical".toList, "C:\\a[b][1]".toList)]) := by
  have hshown : IsShown "C:\\a[b]\\[1]".toList := by decide
  have hp : Windows.dialect.parse "C:\\a[b]\\[1]" = .ok ⟨some "C:\\", ["a[b]", "[1]"]⟩ := rfl
  have hfree : ¬ Emoji.HoldsCode smiling.console.emoji "C:\\a[b]\\[1]".toList :=
    fun hcode => absurd hcode.two_le_count (by decide)
  obtain ⟨absolute, habsolute, -, -, hstdout, -⟩ :=
    parse_shows_table smiling (d := .windows) answer_loaded_nil hasPlainNames_smiling
      (takes_parse_windows _) rfl rfl hshown hfree hp (by decide +kernel)
  obtain rfl : true = absolute := Except.ok.inj habsolute
  exact ⟨hshown, hp, hstdout⟩

/-- A drive is written with one backslash at the end and shown with two. A name with a backslash in
front of a bracket is shown without it. -/
theorem table_not_as_written :
    (Windows.dialect.parse "C:\\" = .ok ⟨some "C:\\", []⟩ ∧
      Windows.dialect.print ⟨some "C:\\", []⟩ = "C:\\" ∧
      (run .unlimited [] ["parse", "-s", "windows", "--", "C:\\"]).stdout =
        " Root       'C:\\\\' \n Names      []     \n Absolute   yes    \n" ++
          " Canonical  C:\\\\   \n") ∧
    (Unix.dialect.parse "a\\[1]" = .ok ⟨none, ["a\\[1]"]⟩ ∧
      Unix.dialect.print ⟨none, ["a\\[1]"]⟩ = "a\\[1]" ∧
      Text.quotedList ["a\\[1]"] = "['a\\\\[1]']" ∧
      (run .unlimited [] ["parse", "--", "a\\[1]"]).stdout =
        " Root       None      \n Names      ['a\\[1]'] \n Absolute   no        \n" ++
          " Canonical  a[1]      \n") := by
  have hdrive : Windows.dialect.parse "C:\\" = .ok ⟨some "C:\\", []⟩ := rfl
  have hname : Unix.dialect.parse "a\\[1]" = .ok ⟨none, ["a\\[1]"]⟩ := rfl
  have habsolute : Windows.dialect.isAbsolute ⟨some "C:\\", []⟩ = .ok true := rfl
  have hrelative : Unix.dialect.isAbsolute ⟨none, ["a\\[1]"]⟩ = .ok false := rfl
  have hplain : Host.unlimited.console.emoji.HasPlainNames := fun name h => by cases h
  have hfree {text : String} (h : text.toList.count ':' < 2) :
      ¬ Emoji.HoldsCode Host.unlimited.console.emoji text.toList :=
    fun hcode => absurd hcode.two_le_count (Nat.not_le_of_lt h)
  have hdriveRun := run_parse .unlimited (d := .windows) answer_loaded_nil hplain
    (takes_parse_windows "C:\\") rfl rfl (by decide) (hfree (by decide)) hdrive habsolute rfl
  have hnameRun := run_parse .unlimited (d := .unix) answer_loaded_nil hplain
    (takes_parse "a\\[1]") rfl rfl (by decide) (hfree (by decide)) hname hrelative rfl
  refine ⟨⟨hdrive, rfl, (congrArg Outcome.stdout hdriveRun).trans ?_⟩,
    ⟨hname, rfl, rfl, (congrArg Outcome.stdout hnameRun).trans ?_⟩⟩
  · change String.ofList _ = _
    decide +kernel
  · change String.ofList _ = _
    decide +kernel

end LexicalPath.Command
