import Mathlib
import LexicalPath.Dialect.Windows
import LexicalPath.Proofs.Dialect.Reading
import LexicalPath.Proofs.Text.Runs

namespace LexicalPath.Windows

/-- A server or a share: a text without separators of either kind that is not empty. -/
def IsShareName (s : List Char) : Prop :=
  s ≠ [] ∧ ∀ c ∈ s, c ≠ '\\' ∧ c ≠ '/'

/-- The roots of Windows paths. -/
inductive IsRoot : Option String → Prop where
  | none : IsRoot none
  | separator : IsRoot (some "\\")
  | drive (letter : Char) (hletter : letter.isUpper = true) :
      IsRoot (some (String.ofList [letter, ':']))
  | driveRoot (letter : Char) (hletter : letter.isUpper = true) :
      IsRoot (some (String.ofList [letter, ':', '\\']))
  | share (server share : List Char) (hserver : IsShareName server) (hshare : IsShareName share) :
      IsRoot (some (String.ofList ('\\' :: '\\' :: server ++ '\\' :: share ++ ['\\'])))

/-- The root is one of the five kinds, and all names are valid. -/
structure WellFormed (p : Path) : Prop where
  root : IsRoot p.root
  names : ∀ name ∈ p.names, isValidName name = true

theorem isValidName_cases {name : String} (h : isValidName name = true) :
    name = "." ∨ name = ".." ∨
      name.toList ≠ [] ∧ ∀ c ∈ name.toList, isReserved c = false := by
  simp only [isValidName, Bool.or_eq_true, decide_eq_true_eq] at h
  rcases h with (h | h) | h
  · exact Or.inl h
  · exact Or.inr (Or.inl h)
  · right
    right
    split at h
    · cases h
    · rename_i last hlast
      simp only [Bool.and_eq_true, List.all_eq_true, Bool.not_eq_true'] at h
      refine ⟨?_, h.2⟩
      intro hnil
      simp [hnil] at hlast

theorem ne_of_isReserved_eq_false {c : Char} (h : isReserved c = false) :
    c ≠ '\\' ∧ c ≠ '/' ∧ c ≠ ':' := by
  refine ⟨?_, ?_, ?_⟩ <;>
    · rintro rfl
      revert h
      decide

theorem toList_of_isValidName {name : String} (h : isValidName name = true) :
    name.toList ≠ [] ∧ ∀ c ∈ name.toList, c ≠ '\\' ∧ c ≠ '/' ∧ c ≠ ':' := by
  have hdot : '.' ≠ '\\' ∧ '.' ≠ '/' ∧ '.' ≠ ':' := by decide
  rcases isValidName_cases h with rfl | rfl | ⟨hne, hfree⟩
  · refine ⟨by simp, ?_⟩
    intro c hc
    have : c = '.' := by simpa using hc
    exact this ▸ hdot
  · refine ⟨by simp, ?_⟩
    intro c hc
    have : c = '.' := by simpa using hc
    exact this ▸ hdot
  · exact ⟨hne, fun c hc => ne_of_isReserved_eq_false (hfree c hc)⟩

theorem isSeparator_eq_false {c : Char} (h : c ≠ '\\') : isSeparator c = false :=
  decide_eq_false h

theorem isRun_of_mem_map {names : List String} (h : ∀ name ∈ names, isValidName name = true) :
    ∀ part ∈ names.map String.toList, Text.IsRun isSeparator part := by
  intro part hpart
  obtain ⟨name, hname, rfl⟩ := List.mem_map.mp hpart
  obtain ⟨hne, hfree⟩ := toList_of_isValidName (h name hname)
  exact ⟨hne, fun c hc => isSeparator_eq_false (hfree c hc).1⟩

/-- The text of names as it stands behind a root. -/
structure IsRest (s : List Char) : Prop where
  head : ∀ c ∈ s.head?, c ≠ '\\'
  noSlash : ∀ c ∈ s, c ≠ '/'
  noColon : ∀ c ∈ s, c ≠ ':'
  trimEnd : Text.trimEnd isSeparator s = s
  trim : Text.trim isSeparator s = s

theorem isRest_joined {names : List String} (h : ∀ name ∈ names, isValidName name = true) :
    IsRest (Text.joined ['\\'] (names.map String.toList)) := by
  have hruns := isRun_of_mem_map h
  have hmem : ∀ c ∈ Text.joined ['\\'] (names.map String.toList), c ≠ '/' ∧ c ≠ ':' := by
    intro c hc
    rcases Text.mem_joined hc with hc | ⟨part, hpart, hc⟩
    · have : c = '\\' := by simpa using hc
      subst this
      decide
    · obtain ⟨name, hname, rfl⟩ := List.mem_map.mp hpart
      exact ((toList_of_isValidName (h name hname)).2 c hc).2
  refine ⟨?_, fun c hc => (hmem c hc).1, fun c hc => (hmem c hc).2,
    Text.trimEnd_joined hruns _, Text.trim_joined hruns _⟩
  intro c hc
  exact of_decide_eq_false (Text.free_head?_joined hruns ['\\'] c hc)

theorem IsRest.ne_separator_cons {s : List Char} (hs : IsRest s) (rest : List Char)
    (h : s = '\\' :: rest) : False :=
  hs.head '\\' (by rw [h]; rfl) rfl

theorem unified_eq_self {s : List Char} (h : ∀ c ∈ s, c ≠ '/') : unified s = s := by
  rw [unified, List.map_congr_left (g := id), List.map_id]
  intro c hc
  exact if_neg (h c hc)

theorem splitUnified?_rest {s : List Char} (hs : IsRest s) :
    splitUnified? s = some (none, s) := by
  rw [splitUnified?, hs.trimEnd]
  · rintro rest rfl
    exact hs.ne_separator_cons _ rfl
  · rintro rest rfl
    exact hs.ne_separator_cons _ rfl
  · rintro letter rest rfl
    exact hs.noColon ':' (by simp) rfl

theorem splitUnified?_separator {s : List Char} (hs : IsRest s) :
    splitUnified? ('\\' :: s) = some (some ['\\'], s) := by
  rw [splitUnified?, hs.trim, separator]
  exact hs.ne_separator_cons

theorem ne_of_isAlpha {letter c : Char} (h : letter.isAlpha = true) (hc : c.isAlpha = false) :
    letter ≠ c := by
  rintro rfl
  rw [h] at hc
  cases hc

theorem letter_of_isUpper {letter : Char} (h : letter.isUpper = true) :
    letter ≠ '\\' ∧ letter ≠ '/' ∧ letter.isAlpha = true ∧ letter.toUpper = letter := by
  have halpha : letter.isAlpha = true := by simp [Char.isAlpha, h]
  exact ⟨ne_of_isAlpha halpha rfl, ne_of_isAlpha halpha rfl, halpha,
    Char.toUpper_eq_of_not_isLower (Char.not_isLower_of_isUpper h)⟩

theorem splitUnified?_drive {letter : Char} (hletter : letter.isUpper = true) {s : List Char}
    (hs : IsRest s) :
    splitUnified? (letter :: ':' :: s) = some (some [letter, ':'], s) := by
  obtain ⟨hne, -, halpha, hupper⟩ := letter_of_isUpper hletter
  rw [splitUnified?, if_pos halpha, hs.trimEnd, hupper]
  · exact hne
  · exact hs.ne_separator_cons

theorem splitUnified?_driveRoot {letter : Char} (hletter : letter.isUpper = true)
    {s : List Char} (hs : IsRest s) :
    splitUnified? (letter :: ':' :: '\\' :: s) = some (some [letter, ':', '\\'], s) := by
  obtain ⟨hne, -, halpha, hupper⟩ := letter_of_isUpper hletter
  rw [splitUnified?, if_pos halpha, hs.trim, hupper, separator]
  exact hne

/-- The text is a server, a separator and a share, and the rest stands behind these. -/
structure SharedBy (s server share rest : List Char) : Prop where
  text : s = server ++ '\\' :: (share ++ rest)
  server : Text.IsRun isSeparator server
  share : Text.IsRun isSeparator share
  rest : ∀ c ∈ rest.head?, isSeparator c = true

theorem SharedBy.splitShare?_eq {s server share rest : List Char}
    (h : SharedBy s server share rest) :
    splitShare? s = some ('\\' :: '\\' :: server ++ '\\' :: share ++ ['\\'], rest) := by
  obtain ⟨rfl, hserver, hshare, hrest⟩ := h
  have hbehind : ∀ c ∈ ('\\' :: (share ++ rest)).head?, isSeparator c = true := by
    rintro c ⟨⟩
    rfl
  obtain ⟨htake, hdrop⟩ := Text.cut_append_of_isRun hserver hbehind
  obtain ⟨htake', hdrop'⟩ := Text.cut_append_of_isRun hshare hrest
  simp only [splitShare?, htake, hdrop, List.drop_succ_cons, List.drop_zero, htake', hdrop']
  rw [if_neg (by simp [hserver.1, hshare.1]), separator]

theorem exists_sharedBy {s root rest : List Char} (h : splitShare? s = some (root, rest)) :
    ∃ server share, SharedBy s server share rest ∧
      root = '\\' :: '\\' :: server ++ '\\' :: share ++ ['\\'] := by
  simp only [splitShare?] at h
  split at h
  · cases h
  · rename_i hne
    simp only [Bool.or_eq_true, List.isEmpty_iff, not_or] at hne
    obtain ⟨hserver, hshare⟩ := hne
    obtain ⟨rfl, rfl⟩ := Prod.mk.inj (Option.some.inj h)
    refine ⟨_, _, ⟨?_, Text.isRun_takeWhile hserver, Text.isRun_takeWhile hshare,
      Text.separator_of_head?_dropWhile⟩, rfl⟩
    -- A share stands behind a separator.
    cases hdrop : s.dropWhile (! isSeparator ·) with
    | nil => simp [hdrop] at hshare
    | cons c behind =>
        have hc : isSeparator c = true :=
          Text.separator_of_head?_dropWhile (s := s) c (by rw [hdrop]; rfl)
        obtain rfl : c = '\\' := of_decide_eq_true hc
        rw [List.drop_succ_cons, List.drop_zero, List.takeWhile_append_dropWhile, ← hdrop,
          List.takeWhile_append_dropWhile]

theorem isShareName_iff {s : List Char} :
    IsShareName s ↔ Text.IsRun isSeparator s ∧ ∀ c ∈ s, c ≠ '/' := by
  constructor
  · rintro ⟨hne, hfree⟩
    exact ⟨⟨hne, fun c hc => isSeparator_eq_false (hfree c hc).1⟩, fun c hc => (hfree c hc).2⟩
  · rintro ⟨⟨hne, hfree⟩, hslash⟩
    exact ⟨hne, fun c hc => ⟨of_decide_eq_false (hfree c hc), hslash c hc⟩⟩

theorem splitUnified?_share {server share : List Char} (hserver : IsShareName server)
    (hshare : IsShareName share) {s : List Char} (hs : IsRest s) :
    splitUnified? ('\\' :: '\\' :: server ++ '\\' :: share ++ ['\\'] ++ s) =
      some (some ('\\' :: '\\' :: server ++ '\\' :: share ++ ['\\']), s) := by
  have htext : '\\' :: '\\' :: server ++ '\\' :: share ++ ['\\'] ++ s =
      '\\' :: '\\' :: (server ++ '\\' :: (share ++ '\\' :: s)) := by simp
  have hshared : SharedBy (server ++ '\\' :: (share ++ '\\' :: s)) server share ('\\' :: s) := by
    refine ⟨rfl, (isShareName_iff.mp hserver).1, (isShareName_iff.mp hshare).1, ?_⟩
    rintro c ⟨⟩
    rfl
  rw [htext, splitUnified?, hshared.splitShare?_eq]
  change some (some _, Text.trim isSeparator ('\\' :: s)) = _
  rw [Text.trim_cons_separator rfl, hs.trim]

theorem splitUnified?_isRoot {root : Option String} (hroot : IsRoot root) {s : List Char}
    (hs : IsRest s) :
    splitUnified? (Dialect.rootChars root ++ s) = some (root.map String.toList, s) := by
  cases hroot with
  | none => exact splitUnified?_rest hs
  | separator => exact splitUnified?_separator hs
  | drive letter hletter =>
      rw [Dialect.rootChars, Option.map_some, String.toList_ofList]
      exact splitUnified?_drive hletter hs
  | driveRoot letter hletter =>
      rw [Dialect.rootChars, Option.map_some, String.toList_ofList]
      exact splitUnified?_driveRoot hletter hs
  | share server share hserver hshare =>
      rw [Dialect.rootChars, Option.map_some, String.toList_ofList]
      exact splitUnified?_share hserver hshare hs

theorem noSlash_of_isRoot {root : Option String} (hroot : IsRoot root) :
    ∀ c ∈ Dialect.rootChars root, c ≠ '/' := by
  cases hroot with
  | none => simp [Dialect.rootChars]
  | separator => simp [Dialect.rootChars]
  | drive letter hletter =>
      obtain ⟨-, hne, -⟩ := letter_of_isUpper hletter
      simp [Dialect.rootChars, hne]
  | driveRoot letter hletter =>
      obtain ⟨-, hne, -⟩ := letter_of_isUpper hletter
      simp [Dialect.rootChars, hne]
  | share server share hserver hshare =>
      intro c hc
      simp only [Dialect.rootChars, String.toList_ofList, List.mem_append, List.mem_cons,
        List.not_mem_nil, or_false, List.cons_append] at hc
      rcases hc with rfl | rfl | (hc | rfl | hc) | rfl
      · decide
      · decide
      · exact (hserver.2 c hc).2
      · decide
      · exact (hshare.2 c hc).2
      · decide

theorem splitRoot_print {p : Path} (hp : WellFormed p) :
    splitRoot (dialect.print p) =
      .ok (p.root, String.ofList (Text.joined ['\\'] (p.names.map String.toList))) := by
  have hrest := isRest_joined hp.names
  have hprint := Dialect.toList_print (d := dialect) rfl p
  change (dialect.print p).toList =
    Dialect.rootChars p.root ++ Text.joined ['\\'] (p.names.map String.toList) at hprint
  have hunified : unified (dialect.print p).toList =
      Dialect.rootChars p.root ++ Text.joined ['\\'] (p.names.map String.toList) := by
    rw [hprint]
    apply unified_eq_self
    intro c hc
    rcases List.mem_append.mp hc with hc | hc
    · exact noSlash_of_isRoot hp.root c hc
    · exact hrest.noSlash c hc
  rw [splitRoot, hunified, splitUnified?_isRoot hp.root hrest]
  simp [Function.comp_def]

theorem splitNames_joined {names : List String} (h : ∀ name ∈ names, isValidName name = true) :
    splitNames (String.ofList (Text.joined ['\\'] (names.map String.toList))) = names := by
  rw [splitNames, String.toList_ofList]
  exact Text.map_runs_joined rfl (isRun_of_mem_map h)

theorem parse_print_of_wellFormed {p : Path} (hp : WellFormed p) :
    dialect.parse (dialect.print p) = .ok p := by
  rw [Dialect.parse_eq_ok_iff]
  refine ⟨_, splitRoot_print hp, congrArg Except.ok (splitNames_joined hp.names), ?_⟩
  intro name hname
  exact congrArg Except.ok (hp.names name hname)

theorem ne_slash_of_mem_unified {s : List Char} {c : Char} (h : c ∈ unified s) : c ≠ '/' := by
  obtain ⟨other, -, rfl⟩ := List.mem_map.mp h
  split
  · decide
  · assumption

theorem isRoot_of_splitShare? {s root rest : List Char} (hs : ∀ c ∈ s, c ≠ '/')
    (h : splitShare? s = some (root, rest)) : IsRoot (some (String.ofList root)) := by
  obtain ⟨server, share, ⟨rfl, hserver, hshare, -⟩, rfl⟩ := exists_sharedBy h
  apply IsRoot.share
  · exact isShareName_iff.mpr ⟨hserver, fun c hc => hs c (by simp [hc])⟩
  · exact isShareName_iff.mpr ⟨hshare, fun c hc => hs c (by simp [hc])⟩

theorem isRoot_of_splitUnified? {s rest : List Char} {root : Option (List Char)}
    (hs : ∀ c ∈ s, c ≠ '/') (h : splitUnified? s = some (root, rest)) :
    IsRoot (root.map String.ofList) := by
  unfold splitUnified? at h
  split at h
  · obtain ⟨⟨share, more⟩, hshare, heq⟩ := Option.map_eq_some_iff.mp h
    obtain ⟨rfl, -⟩ := Prod.mk.inj heq
    exact isRoot_of_splitShare? (fun c hc => hs c (by simp [hc])) hshare
  · obtain ⟨rfl, -⟩ := Prod.mk.inj (Option.some.inj h)
    exact IsRoot.separator
  · rename_i letter behind _
    split at h
    · rename_i halpha
      have hupper : letter.toUpper.isUpper = true := by
        rw [Char.isUpper_toUpper_eq_isAlpha, halpha]
      split at h
      · obtain ⟨rfl, -⟩ := Prod.mk.inj (Option.some.inj h)
        exact IsRoot.driveRoot letter.toUpper hupper
      · obtain ⟨rfl, -⟩ := Prod.mk.inj (Option.some.inj h)
        exact IsRoot.drive letter.toUpper hupper
    · obtain ⟨rfl, -⟩ := Prod.mk.inj (Option.some.inj h)
      exact IsRoot.none
  · obtain ⟨rfl, -⟩ := Prod.mk.inj (Option.some.inj h)
    exact IsRoot.none

theorem wellFormed_of_parse {text : String} {p : Path} (h : dialect.parse text = .ok p) :
    WellFormed p := by
  obtain ⟨rest, hroot, -, hvalid⟩ := (Dialect.parse_eq_ok_iff dialect text p).mp h
  refine ⟨?_, fun name hname => Except.ok.inj (hvalid name hname)⟩
  change splitRoot text = _ at hroot
  simp only [splitRoot] at hroot
  split at hroot
  · cases hroot
  · rename_i root behind hsplit
    obtain ⟨hfst, -⟩ := Prod.mk.inj (Except.ok.inj hroot)
    rw [← hfst]
    exact isRoot_of_splitUnified? (fun c hc => ne_slash_of_mem_unified hc) hsplit

/-- The roots that make a path absolute. -/
inductive IsAbsoluteRoot : Option String → Prop where
  | driveRoot (letter : Char) (hletter : letter.isUpper = true) :
      IsAbsoluteRoot (some (String.ofList [letter, ':', '\\']))
  | share (server share : List Char) (hserver : IsShareName server) (hshare : IsShareName share) :
      IsAbsoluteRoot (some (String.ofList ('\\' :: '\\' :: server ++ '\\' :: share ++ ['\\'])))

theorem isAbsolute_ofList (s : List Char) (names : List String) :
    isAbsolute ⟨some (String.ofList s), names⟩ = true ↔
      s ≠ ['\\'] ∧ s.getLast? = some '\\' := by
  have hroot : String.ofList s = "\\" ↔ s = ['\\'] := by
    rw [← String.toList_inj, String.toList_ofList]
    rfl
  simp [isAbsolute, separator, hroot]

theorem isAbsolute_of_isAbsoluteRoot {p : Path} (h : IsAbsoluteRoot p.root) :
    isAbsolute p = true := by
  obtain ⟨root, names⟩ := p
  cases h with
  | driveRoot letter hletter =>
      rw [isAbsolute_ofList]
      simp
  | share server share hserver hshare =>
      rw [isAbsolute_ofList]
      exact ⟨by simp, List.getLast?_concat⟩

theorem isAbsolute_iff {p : Path} (h : IsRoot p.root) :
    isAbsolute p = true ↔ IsAbsoluteRoot p.root := by
  refine ⟨?_, isAbsolute_of_isAbsoluteRoot⟩
  intro habsolute
  obtain ⟨root, names⟩ := p
  cases h with
  | none => cases habsolute
  | separator => simp [isAbsolute] at habsolute
  | drive letter hletter =>
      rw [isAbsolute_ofList] at habsolute
      simp at habsolute
  | driveRoot letter hletter => exact IsAbsoluteRoot.driveRoot letter hletter
  | share server share hserver hshare =>
      exact IsAbsoluteRoot.share server share hserver hshare

/-- The well-formed paths are those that some text stands for. Each is read back from what is
printed for it, and its root tells whether it is absolute. -/
theorem exists_parse_iff_wellFormed (p : Path) :
    ((∃ text, dialect.parse text = .ok p) ↔ WellFormed p) ∧
      (WellFormed p →
        dialect.parse (dialect.print p) = .ok p ∧
        (∀ q, WellFormed q → dialect.print q = dialect.print p → q = p) ∧
        (dialect.isAbsolute p = .ok true ↔ IsAbsoluteRoot p.root) ∧
        (dialect.isAbsolute p = .ok false ↔ ¬ IsAbsoluteRoot p.root)) := by
  constructor
  · constructor
    · rintro ⟨text, htext⟩
      exact wellFormed_of_parse htext
    · intro hp
      exact ⟨dialect.print p, parse_print_of_wellFormed hp⟩
  · intro hp
    have habsolute := isAbsolute_iff hp.root
    refine ⟨parse_print_of_wellFormed hp, ?_, ?_, ?_⟩
    · intro q hq hprint
      exact Dialect.eq_of_print_eq (parse_print_of_wellFormed hq) (parse_print_of_wellFormed hp)
        hprint
    · rw [← habsolute]
      exact ⟨Except.ok.inj, congrArg Except.ok⟩
    · rw [← habsolute, Bool.not_eq_true]
      exact ⟨Except.ok.inj, congrArg Except.ok⟩

theorem exists_parse_iff_wellFormed_network :
    WellFormed ⟨some "\\\\s\\h\\", ["a", ".."]⟩ ∧
      dialect.parse (dialect.print ⟨some "\\\\s\\h\\", ["a", ".."]⟩) =
        .ok ⟨some "\\\\s\\h\\", ["a", ".."]⟩ ∧
      dialect.isAbsolute ⟨some "\\\\s\\h\\", ["a", ".."]⟩ = .ok true := by
  have hserver : IsShareName ['s'] := ⟨by simp, by simp⟩
  have hshare : IsShareName ['h'] := ⟨by simp, by simp⟩
  have hp : WellFormed ⟨some "\\\\s\\h\\", ["a", ".."]⟩ :=
    ⟨IsRoot.share ['s'] ['h'] hserver hshare, by decide⟩
  obtain ⟨-, hwellFormed⟩ := exists_parse_iff_wellFormed ⟨some "\\\\s\\h\\", ["a", ".."]⟩
  obtain ⟨hread, -, habsolute, -⟩ := hwellFormed hp
  exact ⟨hp, hread, habsolute.mpr (IsAbsoluteRoot.share ['s'] ['h'] hserver hshare)⟩

end LexicalPath.Windows
