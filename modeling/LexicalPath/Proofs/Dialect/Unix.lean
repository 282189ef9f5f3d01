import LexicalPath.Dialect.Unix
import LexicalPath.Proofs.Dialect.Reading
import LexicalPath.Proofs.Text.Squeezed

namespace LexicalPath.Unix

/-- The root is the separator, if there is a root, and all names are valid. -/
structure WellFormed (p : Path) : Prop where
  root : p.root = none ∨ p.root = some "/"
  names : ∀ name ∈ p.names, isValidName name = true

theorem isRun_of_isValidName {name : String} (h : isValidName name = true) :
    Text.IsRun isSeparator name.toList := by
  simp only [isValidName, Bool.and_eq_true, List.all_eq_true, Bool.not_eq_true',
    bne_iff_ne] at h
  obtain ⟨hne, hall⟩ := h
  constructor
  · intro hnil
    rw [String.toList_eq_nil_iff] at hnil
    simp [hnil] at hne
  · intro c hc
    simpa [isSeparator] using (hall c hc).1

theorem isRun_of_mem_map {names : List String} (h : ∀ name ∈ names, isValidName name = true) :
    ∀ part ∈ names.map String.toList, Text.IsRun isSeparator part := by
  intro part hpart
  obtain ⟨name, hname, rfl⟩ := List.mem_map.mp hpart
  exact isRun_of_isValidName (h name hname)

theorem splitRoot_print {p : Path} (hp : WellFormed p) :
    splitRoot (dialect.print p) =
      (p.root, String.ofList (Text.joined ['/'] (p.names.map String.toList))) := by
  have hruns := isRun_of_mem_map hp.names
  have hprint := Dialect.toList_print (d := dialect) rfl p
  change (dialect.print p).toList =
    Dialect.rootChars p.root ++ Text.joined ['/'] (p.names.map String.toList) at hprint
  rw [splitRoot, hprint]
  rcases hp.root with hroot | hroot
  · rw [hroot, Dialect.rootChars, List.nil_append]
    split
    · rename_i rest hjoined
      have hhead := Text.free_head?_joined hruns ['/'] '/' (by rw [hjoined]; rfl)
      simp [isSeparator] at hhead
    · rw [Text.trimEnd_joined hruns]
  · rw [hroot]
    change (some "/", String.ofList
      (Text.trim isSeparator (Text.joined ['/'] (p.names.map String.toList)))) = _
    rw [Text.trim_joined hruns]

theorem splitNames_joined {names : List String} (h : ∀ name ∈ names, isValidName name = true) :
    splitNames (String.ofList (Text.joined ['/'] (names.map String.toList))) = names := by
  rw [splitNames, String.toList_ofList]
  exact Text.map_runs_joined rfl (isRun_of_mem_map h)

theorem parse_print_of_wellFormed {p : Path} (hp : WellFormed p) :
    dialect.parse (dialect.print p) = .ok p := by
  rw [Dialect.parse_eq_ok_iff]
  refine ⟨_, congrArg Except.ok (splitRoot_print hp),
    congrArg Except.ok (splitNames_joined hp.names), ?_⟩
  intro name hname
  exact congrArg Except.ok (hp.names name hname)

theorem splitRoot_fst (text : String) :
    (splitRoot text).1 = none ∨ (splitRoot text).1 = some "/" := by
  rw [splitRoot]
  split
  · exact Or.inr rfl
  · exact Or.inl rfl

theorem wellFormed_of_parse {text : String} {p : Path} (h : dialect.parse text = .ok p) :
    WellFormed p := by
  obtain ⟨rest, hroot, -, hvalid⟩ := (Dialect.parse_eq_ok_iff dialect text p).mp h
  constructor
  · have hfst : (splitRoot text).1 = p.root := congrArg Prod.fst (Except.ok.inj hroot)
    rw [← hfst]
    exact splitRoot_fst text
  · intro name hname
    exact Except.ok.inj (hvalid name hname)

theorem isValidName_iff (name : String) :
    isValidName name = true ↔ name ≠ "" ∧ '/' ∉ name.toList ∧ '\x00' ∉ name.toList := by
  simp only [isValidName, Bool.and_eq_true, List.all_eq_true, Bool.not_eq_true', bne_iff_ne,
    String.isEmpty_eq_false_iff]
  constructor
  · rintro ⟨hne, hall⟩
    exact ⟨hne, fun h => (hall _ h).1 rfl, fun h => (hall _ h).2 rfl⟩
  · rintro ⟨hne, hslash, hnul⟩
    refine ⟨hne, ?_⟩
    intro c hc
    constructor
    · rintro rfl
      exact hslash hc
    · rintro rfl
      exact hnul hc

theorem isValidName_ofList {run : List Char} (hrun : Text.IsRun isSeparator run) :
    isValidName (String.ofList run) = true ↔ '\x00' ∉ run := by
  have hslash : '/' ∉ run := fun h => absurd (hrun.2 _ h) (by decide)
  rw [isValidName_iff, String.toList_ofList]
  simp [hrun.1, hslash]

theorem splitRoot_fst_eq (text : String) :
    (splitRoot text).1 = if text.toList.head? = some '/' then some "/" else none := by
  rw [splitRoot]
  split
  · rename_i rest htext
    simp [htext]
  · rename_i hhead
    rw [if_neg]
    intro h
    obtain ⟨rest, hrest⟩ := List.head?_eq_some_iff.mp h
    exact hhead rest hrest

theorem splitNames_splitRoot (text : String) :
    splitNames (splitRoot text).2 = (Text.runs isSeparator text.toList).map String.ofList := by
  have hslash : isSeparator '/' = true := rfl
  rw [splitNames, splitRoot]
  split
  · rename_i rest htext
    rw [htext, String.toList_ofList, Text.runs_trim, Text.runs_cons_separator hslash]
  · rw [String.toList_ofList, Text.runs_trimEnd]

theorem parse_eq (text : String) :
    dialect.parse text =
      match ((Text.runs isSeparator text.toList).map String.ofList).find? (! isValidName ·) with
      | some name => .error (.invalidName text name)
      | none =>
          .ok { root := if text.toList.head? = some '/' then some "/" else none
                names := (Text.runs isSeparator text.toList).map String.ofList } := by
  rw [← splitRoot_fst_eq, ← splitNames_splitRoot]
  exact Dialect.parse_eq_of_split (fun _ => rfl) rfl rfl

theorem parse_of_not_mem {text : String} (h : '\x00' ∉ text.toList) :
    dialect.parse text =
      .ok { root := if text.toList.head? = some '/' then some "/" else none
            names := (Text.runs isSeparator text.toList).map String.ofList } := by
  have hvalid : ((Text.runs isSeparator text.toList).map String.ofList).find? (! isValidName ·) =
      none := by
    rw [List.find?_eq_none]
    intro name hname
    obtain ⟨run, hrun, rfl⟩ := List.mem_map.mp hname
    have hfree : '\x00' ∉ run := by
      intro hnul
      exact h (((Text.parted_runs _).mem (by decide)).mpr ⟨run, hrun, hnul⟩)
    simp [(isValidName_ofList (Text.isRun_of_mem_runs hrun)).mpr hfree]
  rw [parse_eq, hvalid]

theorem map_toList_runs (s : List Char) :
    ((Text.runs isSeparator s).map String.ofList).map String.toList = Text.runs isSeparator s := by
  simp [Function.comp_def]

theorem toList_print_runs (s : List Char) :
    (dialect.print
      { root := if s.head? = some '/' then some "/" else none
        names := (Text.runs isSeparator s).map String.ofList }).toList = Text.tidied '/' s := by
  have hseparator : ∀ c, isSeparator c = true ↔ c = '/' := fun c => decide_eq_true_iff
  rw [Dialect.toList_print rfl, map_toList_runs, Text.tidied_eq hseparator, Text.lead]
  split <;> rfl

theorem parse_of_mem {text : String} (h : '\x00' ∈ text.toList) :
    ∃ before name after, text.toList = before ++ name ++ after ∧
      Text.IsMaximalRun isSeparator before name after ∧ '\x00' ∈ name ∧ '\x00' ∉ before ∧
      dialect.parse text = .error (.invalidName text (String.ofList name)) := by
  have hvalid : ∀ run ∈ Text.runs isSeparator text.toList,
      isValidName (String.ofList run) = true ↔ '\x00' ∉ run :=
    fun run hrun => isValidName_ofList (Text.isRun_of_mem_runs hrun)
  obtain ⟨run, hrun, hnul⟩ := ((Text.parted_runs _).mem (p := isSeparator) (by decide)).mp h
  cases hfind : (Text.runs isSeparator text.toList).find?
      fun run => ! isValidName (String.ofList run) with
  | none =>
      have hrun' := List.find?_eq_none.mp hfind run hrun
      exact absurd ((hvalid run hrun).mp (by simpa using hrun')) (not_not_intro hnul)
  | some name =>
      obtain ⟨hname, earlier, later, hsplit, hearlier⟩ := List.find?_eq_some_iff_append.mp hfind
      have hparted := Text.parted_runs (p := isSeparator) text.toList
      rw [hsplit] at hparted hvalid
      obtain ⟨before, after, htext, hmaximal, hbefore⟩ := hparted.exists_maximal
      refine ⟨before, name, after, htext, hmaximal, ?_, ?_, ?_⟩
      · by_contra hfree
        simp [(hvalid name (by simp)).mpr hfree] at hname
      · intro hnul'
        obtain ⟨part, hpart, hin⟩ := (hbefore.mem (by decide)).mp hnul'
        exact (hvalid part (by simp [hpart])).mp (by simpa using hearlier part hpart) hin
      · rw [parse_eq, List.find?_map]
        simp only [Function.comp_def, hfind, Option.map_some]

/-- How every text is read. It is rejected for NUL alone, at the first run that holds one. Otherwise
it is read as its runs, below the root if a separator is in front, and printed without the
separators that tell nothing. -/
theorem reading_of_text (text : String) :
    ((∃ e, dialect.parse text = .error e) ↔ '\x00' ∈ text.toList) ∧
      (∀ e, dialect.parse text = .error e →
        ∃ before name after, text.toList = before ++ name ++ after ∧
          Text.IsMaximalRun isSeparator before name after ∧ '\x00' ∈ name ∧ '\x00' ∉ before ∧
          e = .invalidName text (String.ofList name)) ∧
      (∀ p, dialect.parse text = .ok p →
        p.root = (if text.toList.head? = some '/' then some "/" else none) ∧
        (∀ parts, Text.Parted isSeparator text.toList parts ↔
          parts = p.names.map String.toList) ∧
        (dialect.print p).toList = Text.tidied '/' text.toList) ∧
      ∀ p : Path, p.root = none ∨ p.root = some "/" →
        (∀ name ∈ p.names, name ≠ "" ∧ '/' ∉ name.toList ∧ '\x00' ∉ name.toList) →
        dialect.parse (dialect.print p) = .ok p := by
  refine ⟨?_, ?_, ?_, ?_⟩
  · constructor
    · rintro ⟨e, he⟩
      by_contra hfree
      rw [parse_of_not_mem hfree] at he
      cases he
    · intro hnul
      obtain ⟨_, _, _, -, -, -, -, herror⟩ := parse_of_mem hnul
      exact ⟨_, herror⟩
  · intro e he
    by_cases hnul : '\x00' ∈ text.toList
    · obtain ⟨before, name, after, htext, hmaximal, hin, hbefore, herror⟩ := parse_of_mem hnul
      rw [he] at herror
      exact ⟨before, name, after, htext, hmaximal, hin, hbefore, Except.error.inj herror⟩
    · rw [parse_of_not_mem hnul] at he
      cases he
  · intro p hp
    by_cases hnul : '\x00' ∈ text.toList
    · obtain ⟨_, _, _, -, -, -, -, herror⟩ := parse_of_mem hnul
      rw [hp] at herror
      cases herror
    · rw [parse_of_not_mem hnul] at hp
      obtain rfl := Except.ok.inj hp
      refine ⟨rfl, ?_, toList_print_runs text.toList⟩
      intro parts
      rw [map_toList_runs]
      exact Text.parted_iff text.toList parts
  · intro p hroot hnames
    apply parse_print_of_wellFormed
    refine ⟨hroot, ?_⟩
    intro name hname
    exact (isValidName_iff name).mpr (hnames name hname)

theorem reading_of_text_with_nul :
    '\x00' ∈ "/a/b\x00".toList ∧ (∃ e, dialect.parse "/a/b\x00" = .error e) ∧
      dialect.parse (dialect.print ⟨some "/", ["a", ".."]⟩) = .ok ⟨some "/", ["a", ".."]⟩ := by
  obtain ⟨hfails, -, -, hback⟩ := reading_of_text "/a/b\x00"
  have hnul : '\x00' ∈ "/a/b\x00".toList := by decide
  exact ⟨hnul, hfails.mpr hnul, hback _ (Or.inr rfl) (by decide)⟩

end LexicalPath.Unix
