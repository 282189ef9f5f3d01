import LexicalPath.Proofs.Dialect.Windows
import LexicalPath.Proofs.Text.Parted

/-!
Windows texts taken apart into a root and names, said without cutting. A text has a root unless it
begins like a network root and lacks a server or a share (`exists_rooted`), and it is read just when
it has one and all segments behind that are valid names (`reading_of_rooted_text`). How separators
and drive letters are spelled makes no difference.
-/

namespace LexicalPath.Windows

/-- The text begins with a drive letter. -/
def StartsWithDrive (s : List Char) : Prop :=
  ∃ letter rest, s = letter :: ':' :: rest ∧ letter.isAlpha = true

/-- The text, in which all separators are of one kind, is a root and the rest behind it. The root is
given as it is written. -/
inductive Rooted : List Char → Option (List Char) → List Char → Prop where
  | none {s : List Char} (hs : s.head? ≠ some '\\') (hdrive : ¬ StartsWithDrive s) :
      Rooted s none s
  | separator {s : List Char} (hs : s.head? ≠ some '\\') : Rooted ('\\' :: s) (some ['\\']) s
  | drive {letter : Char} {s : List Char} (hletter : letter.isAlpha = true)
      (hs : s.head? ≠ some '\\') : Rooted (letter :: ':' :: s) (some [letter.toUpper, ':']) s
  | driveRoot {letter : Char} {s : List Char} (hletter : letter.isAlpha = true) :
      Rooted (letter :: ':' :: '\\' :: s) (some [letter.toUpper, ':', '\\']) s
  | share {s server share rest : List Char} (h : SharedBy s server share rest) :
      Rooted ('\\' :: '\\' :: s) (some ('\\' :: '\\' :: server ++ '\\' :: share ++ ['\\'])) rest

/-- The text begins with two separators and goes on with no server and share. -/
def LacksShare (s : List Char) : Prop :=
  ∃ behind, s = '\\' :: '\\' :: behind ∧ ∀ server share rest, ¬ SharedBy behind server share rest

theorem splitUnified?_of_lacksShare {s : List Char} (h : LacksShare s) :
    splitUnified? s = none := by
  obtain ⟨behind, rfl, hlacks⟩ := h
  rw [splitUnified?, Option.map_eq_none_iff]
  cases hsplit : splitShare? behind with
  | none => rfl
  | some cut =>
      obtain ⟨server, share, hshared, -⟩ := exists_sharedBy hsplit
      exact absurd hshared (hlacks server share cut.2)

theorem exists_rooted {s : List Char} (h : ¬ LacksShare s) : ∃ root rest, Rooted s root rest := by
  by_cases hhead : s.head? = some '\\'
  · obtain ⟨behind, rfl⟩ := List.head?_eq_some_iff.mp hhead
    by_cases hnext : behind.head? = some '\\'
    · obtain ⟨more, rfl⟩ := List.head?_eq_some_iff.mp hnext
      by_contra hnone
      refine h ⟨more, rfl, ?_⟩
      intro server share rest hshared
      exact hnone ⟨_, _, .share hshared⟩
    · exact ⟨_, _, .separator hnext⟩
  · by_cases hdrive : StartsWithDrive s
    · obtain ⟨letter, behind, rfl, hletter⟩ := hdrive
      by_cases hnext : behind.head? = some '\\'
      · obtain ⟨more, rfl⟩ := List.head?_eq_some_iff.mp hnext
        exact ⟨_, _, .driveRoot hletter⟩
      · exact ⟨_, _, .drive hletter hnext⟩
    · exact ⟨_, _, .none hhead hdrive⟩

theorem Rooted.splitUnified?_eq {s rest : List Char} {root : Option (List Char)}
    (h : Rooted s root rest) :
    ∃ trimmed, splitUnified? s = some (root, trimmed) ∧
      Text.runs isSeparator trimmed = Text.runs isSeparator rest := by
  cases h with
  | none hs hdrive =>
      refine ⟨_, ?_, Text.runs_trimEnd s⟩
      unfold splitUnified?
      split
      · exact absurd rfl hs
      · exact absurd rfl hs
      · rename_i letter behind _
        exact if_neg fun hletter => hdrive ⟨letter, behind, rfl, hletter⟩
      · rfl
  | separator hs =>
      refine ⟨_, ?_, Text.runs_trim rest⟩
      rw [splitUnified?, Windows.separator]
      rintro more rfl
      exact hs rfl
  | drive hletter hs =>
      refine ⟨_, ?_, Text.runs_trimEnd rest⟩
      rw [splitUnified?, if_pos hletter]
      · exact ne_of_isAlpha hletter rfl
      · rintro more rfl
        exact hs rfl
  | driveRoot hletter =>
      refine ⟨_, ?_, Text.runs_trim rest⟩
      rw [splitUnified?, if_pos hletter, Windows.separator]
      exact ne_of_isAlpha hletter rfl
  | share hshared =>
      refine ⟨_, ?_, Text.runs_trim rest⟩
      rw [splitUnified?, hshared.splitShare?_eq]
      rfl

theorem parse_of_lacksShare {text : String} (h : LacksShare (unified text.toList)) :
    dialect.parse text =
      .error (.incompleteNetworkRoot text (String.ofList (unified text.toList))) := by
  have hroot : dialect.grammar.splitRoot text =
      .error (.incompleteNetworkRoot text (String.ofList (unified text.toList))) := by
    change splitRoot text = _
    simp only [splitRoot, splitUnified?_of_lacksShare h]
  simp only [Dialect.parse, hroot]

theorem parse_of_rooted {text : String} {root : Option (List Char)} {rest : List Char}
    (h : Rooted (unified text.toList) root rest) :
    dialect.parse text =
      match ((Text.runs isSeparator rest).map String.ofList).find? (! isValidName ·) with
      | some name => .error (.invalidName text name)
      | none =>
          .ok { root := root.map String.ofList
                names := (Text.runs isSeparator rest).map String.ofList } := by
  obtain ⟨trimmed, hsplit, hruns⟩ := h.splitUnified?_eq
  have hroot : dialect.grammar.splitRoot text =
      .ok (root.map String.ofList, String.ofList trimmed) := by
    change splitRoot text = _
    simp only [splitRoot, hsplit]
  have hnames : dialect.grammar.splitNames (String.ofList trimmed) =
      .ok ((Text.runs isSeparator rest).map String.ofList) := by
    change Except.ok (splitNames _) = _
    rw [splitNames, String.toList_ofList, hruns]
  exact Dialect.parse_eq_of_split (fun _ => rfl) hroot hnames

/-- The characters are the same, or both are separators, of one kind or the other. -/
def SameCharacter (c d : Char) : Prop :=
  c = d ∨ (c = '/' ∨ c = '\\') ∧ (d = '/' ∨ d = '\\')

/-- The texts differ in the kinds of their separators and in the case of the drive letter with which
they begin, if at all. -/
inductive Respelled : List Char → List Char → Prop where
  | separators {s t : List Char} (h : List.Forall₂ SameCharacter s t) : Respelled s t
  | drive {letter other : Char} {s t : List Char} (hletter : letter.isAlpha = true)
      (hother : other.isAlpha = true) (hcase : letter.toUpper = other.toUpper)
      (h : List.Forall₂ SameCharacter s t) : Respelled (letter :: ':' :: s) (other :: ':' :: t)

theorem unified_eq_of_forall₂ {s t : List Char} (h : List.Forall₂ SameCharacter s t) :
    unified s = unified t := by
  induction h with
  | nil => rfl
  | @cons c d s t hc _ ih =>
      rw [unified, List.map_cons, unified, List.map_cons]
      refine congrArg₂ List.cons ?_ ih
      rcases hc with rfl | ⟨rfl | rfl, rfl | rfl⟩ <;> rfl

theorem unified_drive {letter : Char} (hletter : letter.isAlpha = true) (s : List Char) :
    unified (letter :: ':' :: s) = letter :: ':' :: unified s := by
  rw [unified, List.map_cons, if_neg (ne_of_isAlpha hletter rfl)]
  rfl

theorem Respelled.lacksShare {s t : List Char} (h : Respelled s t) (hs : LacksShare (unified s)) :
    LacksShare (unified t) := by
  cases h with
  | separators h => rwa [← unified_eq_of_forall₂ h]
  | drive hletter hother hcase h =>
      obtain ⟨behind, htext, -⟩ := hs
      rw [unified_drive hletter] at htext
      cases htext

theorem Respelled.rooted {s t rest : List Char} {root : Option (List Char)} (h : Respelled s t)
    (hs : Rooted (unified s) root rest) : Rooted (unified t) root rest := by
  cases h with
  | separators h => rwa [← unified_eq_of_forall₂ h]
  | @drive letter other s t hletter hother hcase h =>
      rw [unified_drive hletter, unified_eq_of_forall₂ h] at hs
      rw [unified_drive hother]
      generalize unified t = u at hs ⊢
      cases hs with
      | none _ hdrive => exact absurd ⟨letter, u, rfl, hletter⟩ hdrive
      | separator _ => exact absurd rfl (ne_of_isAlpha hletter rfl)
      | drive _ hu =>
          rw [hcase]
          exact .drive hother hu
      | driveRoot _ =>
          rw [hcase]
          exact .driveRoot hother

/-- Texts that are spelled in two ways stand for the same path, or for none. -/
theorem parse_respelled {text other : String} (h : Respelled text.toList other.toList) :
    (∃ p, dialect.parse text = .ok p ∧ dialect.parse other = .ok p) ∨
      (∃ e, dialect.parse text = .error e) ∧ ∃ e, dialect.parse other = .error e := by
  by_cases hlacks : LacksShare (unified text.toList)
  · exact Or.inr ⟨⟨_, parse_of_lacksShare hlacks⟩, ⟨_, parse_of_lacksShare (h.lacksShare hlacks)⟩⟩
  · obtain ⟨root, rest, hrooted⟩ := exists_rooted hlacks
    rw [parse_of_rooted hrooted, parse_of_rooted (h.rooted hrooted)]
    cases ((Text.runs isSeparator rest).map String.ofList).find? (! isValidName ·) with
    | none => exact Or.inl ⟨_, rfl, rfl⟩
    | some name => exact Or.inr ⟨⟨_, rfl⟩, ⟨_, rfl⟩⟩

theorem parse_of_rejected {text : String} {root : Option (List Char)} {rest part : List Char}
    {earlier later : List (List Char)} (hrooted : Rooted (unified text.toList) root rest)
    (hparts : Text.Parted isSeparator rest (earlier ++ part :: later))
    (hearlier : ∀ other ∈ earlier, isValidName (String.ofList other) = true)
    (hpart : isValidName (String.ofList part) = false) :
    dialect.parse text = .error (.invalidName text (String.ofList part)) := by
  have hfind : ((earlier ++ part :: later).map String.ofList).find? (! isValidName ·) =
      some (String.ofList part) := by
    rw [List.map_append, List.find?_append, List.find?_eq_none.mpr, Option.none_or, List.map_cons,
      List.find?_cons_of_pos]
    · simp [hpart]
    · simpa using hearlier
  rw [parse_of_rooted hrooted, ← (Text.parted_iff _ _).mp hparts, hfind]

theorem parse_of_valid {text : String} {root : Option (List Char)} {rest : List Char}
    {parts : List (List Char)} (hrooted : Rooted (unified text.toList) root rest)
    (hparts : Text.Parted isSeparator rest parts)
    (hvalid : ∀ part ∈ parts, isValidName (String.ofList part) = true) :
    dialect.parse text = .ok ⟨root.map String.ofList, parts.map String.ofList⟩ := by
  have hfind : (parts.map String.ofList).find? (! isValidName ·) = none := by
    rw [List.find?_eq_none]
    simpa using hvalid
  rw [parse_of_rooted hrooted, ← (Text.parted_iff _ _).mp hparts, hfind]

theorem exists_first_rejected {parts : List (List Char)}
    (h : ∃ part ∈ parts, isValidName (String.ofList part) = false) :
    ∃ earlier part later, parts = earlier ++ part :: later ∧
      (∀ other ∈ earlier, isValidName (String.ofList other) = true) ∧
      isValidName (String.ofList part) = false := by
  cases hfind : parts.find? fun part => ! isValidName (String.ofList part) with
  | none =>
      obtain ⟨part, hmem, hpart⟩ := h
      have hvalid := List.find?_eq_none.mp hfind part hmem
      rw [hpart] at hvalid
      exact absurd rfl hvalid
  | some part =>
      obtain ⟨hpart, earlier, later, hparts, hearlier⟩ := List.find?_eq_some_iff_append.mp hfind
      exact ⟨earlier, part, later, hparts, by simpa using hearlier, by simpa using hpart⟩

theorem parse_cases (text : String) :
    LacksShare (unified text.toList) ∨
      ∃ root rest parts, Rooted (unified text.toList) root rest ∧
        Text.Parted isSeparator rest parts ∧
        ((∃ part ∈ parts, isValidName (String.ofList part) = false) ∨
          dialect.parse text = .ok ⟨root.map String.ofList, parts.map String.ofList⟩) := by
  by_cases hlacks : LacksShare (unified text.toList)
  · exact Or.inl hlacks
  · obtain ⟨root, rest, hrooted⟩ := exists_rooted hlacks
    have hparts := Text.parted_runs (p := isSeparator) rest
    refine Or.inr ⟨root, rest, _, hrooted, hparts, ?_⟩
    by_cases hrejected : ∃ part ∈ Text.runs isSeparator rest,
        isValidName (String.ofList part) = false
    · exact Or.inl hrejected
    · right
      apply parse_of_valid hrooted hparts
      simpa using hrejected

theorem exists_rooted_of_parse {text : String} {p : Path} (hp : dialect.parse text = .ok p) :
    ∃ rest, Rooted (unified text.toList) (p.root.map String.toList) rest ∧
      Text.Parted isSeparator rest (p.names.map String.toList) := by
  rcases parse_cases text with
    hlacks | ⟨root, rest, parts, hrooted, hparts, hrejected | hread⟩
  · rw [parse_of_lacksShare hlacks] at hp
    cases hp
  · obtain ⟨earlier, part, later, rfl, hearlier, hpart⟩ := exists_first_rejected hrejected
    rw [parse_of_rejected hrooted hparts hearlier hpart] at hp
    cases hp
  · rw [hp] at hread
    obtain rfl := Except.ok.inj hread
    refine ⟨rest, ?_, ?_⟩
    · simpa [Function.comp_def] using hrooted
    · simpa [Function.comp_def] using hparts

/-- How every text is read. It is rejected if it lacks a share, or else for the first segment behind
its root that is no name. Otherwise it is read as its root and the segments behind that. A text that
is spelled in another way is read as the same path, or rejected as well. -/
theorem reading_of_rooted_text (text : String) :
    ((∃ e, dialect.parse text = .error e) ↔
      LacksShare (unified text.toList) ∨
        ∃ root rest parts, Rooted (unified text.toList) root rest ∧
          Text.Parted isSeparator rest parts ∧
          ∃ part ∈ parts, isValidName (String.ofList part) = false) ∧
      (LacksShare (unified text.toList) →
        ∃ e, dialect.parse text = .error e ∧
          e.rejected? = some (text, String.ofList (unified text.toList)) ∧
          e.reason? = some "incomplete UNC root") ∧
      (∀ root rest earlier part later, Rooted (unified text.toList) root rest →
        Text.Parted isSeparator rest (earlier ++ part :: later) →
        (∀ other ∈ earlier, isValidName (String.ofList other) = true) →
        isValidName (String.ofList part) = false →
        ∃ e, dialect.parse text = .error e ∧ e.rejected? = some (text, String.ofList part) ∧
          e.reason? = some "invalid path element") ∧
      (∀ p, dialect.parse text = .ok p →
        ∃ rest, Rooted (unified text.toList) (p.root.map String.toList) rest ∧
          Text.Parted isSeparator rest (p.names.map String.toList)) ∧
      ∀ other : String, Respelled text.toList other.toList →
        (∃ p, dialect.parse text = .ok p ∧ dialect.parse other = .ok p) ∨
          (∃ e, dialect.parse text = .error e) ∧ ∃ e, dialect.parse other = .error e := by
  have hlacksError : LacksShare (unified text.toList) → ∃ e, dialect.parse text = .error e ∧
      e.rejected? = some (text, String.ofList (unified text.toList)) ∧
      e.reason? = some "incomplete UNC root" :=
    fun hlacks => ⟨_, parse_of_lacksShare hlacks, rfl, rfl⟩
  have hrejectedError : ∀ root rest parts, Rooted (unified text.toList) root rest →
      Text.Parted isSeparator rest parts →
      (∃ part ∈ parts, isValidName (String.ofList part) = false) →
      ∃ e, dialect.parse text = .error e := by
    intro root rest parts hrooted hparts hrejected
    obtain ⟨earlier, part, later, rfl, hearlier, hpart⟩ := exists_first_rejected hrejected
    exact ⟨_, parse_of_rejected hrooted hparts hearlier hpart⟩
  refine ⟨⟨?_, ?_⟩, hlacksError, ?_, fun p => exists_rooted_of_parse, fun other => parse_respelled⟩
  · rintro ⟨e, he⟩
    rcases parse_cases text with
      hlacks | ⟨root, rest, parts, hrooted, hparts, hrejected | hread⟩
    · exact Or.inl hlacks
    · exact Or.inr ⟨root, rest, parts, hrooted, hparts, hrejected⟩
    · rw [hread] at he
      cases he
  · rintro (hlacks | ⟨root, rest, parts, hrooted, hparts, hrejected⟩)
    · obtain ⟨e, he, -⟩ := hlacksError hlacks
      exact ⟨e, he⟩
    · exact hrejectedError root rest parts hrooted hparts hrejected
  · intro root rest earlier part later hrooted hparts hearlier hpart
    exact ⟨_, parse_of_rejected hrooted hparts hearlier hpart, rfl, rfl⟩

/-- Of two bad segments the first one is told, a server without a share is refused, and a small
drive letter is read as the capital. -/
theorem reading_of_rooted_text_spelled :
    Rooted (unified "c:/a/b?/d.".toList) (some ['C', ':', '\\']) "a\\b?\\d.".toList ∧
      (∃ e, dialect.parse "c:/a/b?/d." = .error e ∧ e.rejected? = some ("c:/a/b?/d.", "b?") ∧
        e.reason? = some "invalid path element") ∧
      LacksShare (unified "//s".toList) ∧
      (∃ e, dialect.parse "//s" = .error e ∧ e.rejected? = some ("//s", "\\\\s") ∧
        e.reason? = some "incomplete UNC root") ∧
      Respelled "c:/a".toList "C:\\a".toList ∧
      ∃ p, dialect.parse "c:/a" = .ok p ∧ dialect.parse "C:\\a" = .ok p := by
  have hrooted : Rooted (unified "c:/a/b?/d.".toList) (some ['C', ':', '\\'])
      "a\\b?\\d.".toList := .driveRoot rfl
  have hparts : Text.Parted isSeparator "a\\b?\\d.".toList (["a".toList] ++ "b?".toList ::
      ["d.".toList]) := (Text.parted_iff _ _).mpr (by decide)
  have hlacks : LacksShare (unified "//s".toList) := by
    refine ⟨['s'], rfl, ?_⟩
    rintro server share rest ⟨htext, -, -, -⟩
    have hmem : '\\' ∈ ['s'] := by
      rw [htext]
      simp
    simp at hmem
  have hrespelled : Respelled "c:/a".toList "C:\\a".toList :=
    .drive rfl rfl rfl (.cons (Or.inr (by decide)) (.cons (Or.inl rfl) .nil))
  refine ⟨hrooted, ?_, hlacks, ?_, hrespelled, ?_⟩
  · exact (reading_of_rooted_text "c:/a/b?/d.").2.2.1 _ _ _ _ _ hrooted hparts (by decide)
      (by decide)
  · exact (reading_of_rooted_text "//s").2.1 hlacks
  · rcases (reading_of_rooted_text "c:/a").2.2.2.2 "C:\\a" hrespelled with hread | ⟨⟨e, he⟩, -⟩
    · exact hread
    · have hread : dialect.parse "c:/a" = .ok ⟨some "C:\\", ["a"]⟩ := rfl
      rw [hread] at he
      cases he

end LexicalPath.Windows
