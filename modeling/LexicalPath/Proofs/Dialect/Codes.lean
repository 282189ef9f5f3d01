import LexicalPath.Proofs.Dialect.Controls
import LexicalPath.Proofs.Dialect.Windows.Rooted
import LexicalPath.Proofs.Display.Emoji
import LexicalPath.Proofs.Text.Printable

namespace LexicalPath.Emoji

open Text (IsShown quotedChar quotedChars quoteMark)

variable {emoji : Table} {s t : List Char}

section

variable (h : emoji.HasPlainNames)

include h

/-! ### Texts in quotes -/

theorem parts_quoteMark (s : List Char) : Parts emoji (quoteMark s) := by
  rw [quoteMark]
  split
  · exact h.parts (by decide)
  · exact h.parts (by decide)

theorem holdsCode_flatMap_quotedChar {mark : Char} (hmark : Parts emoji mark) (hs : IsShown s)
    (front : List Char) :
    HoldsCode emoji (front ++ s.flatMap (quotedChar mark)) ↔ HoldsCode emoji (front ++ s) := by
  induction s generalizing front with
  | nil => rfl
  | cons c rest ih =>
      have hbackslash : Parts emoji '\\' := h.parts (by decide)
      obtain ⟨hc, hrest⟩ := Text.isShown_cons.mp hs
      rw [List.flatMap_cons, quotedChar]
      by_cases hescaped : c = mark ∨ c = '\\'
      · have hparts : Parts emoji c := by
          rcases hescaped with rfl | rfl
          · exact hmark
          · exact hbackslash
        have hbehind := ih hrest []
        rw [List.nil_append, List.nil_append] at hbehind
        rw [if_pos hescaped, List.cons_append, List.singleton_append,
          holdsCode_append_cons hbackslash, holdsCode_cons hparts, holdsCode_append_cons hparts,
          hbehind]
      · have hne {d : Char} (hd : Text.isPrintable d = false) : c ≠ d :=
          Text.ne_of_isPrintable hc hd
        have hkept := ih hrest (front ++ [c])
        rw [List.append_assoc, List.append_assoc, List.singleton_append] at hkept
        rw [if_neg hescaped, if_neg (hne (by decide)), if_neg (hne (by decide)),
          if_neg (hne (by decide)), if_pos hc]
        exact hkept

theorem holdsCode_quotedChars_append (hs : IsShown s) :
    HoldsCode emoji (quotedChars s ++ t) ↔ HoldsCode emoji s ∨ HoldsCode emoji t := by
  have hmark := parts_quoteMark h s
  have hquoted := holdsCode_flatMap_quotedChar h hmark hs []
  rw [List.nil_append, List.nil_append] at hquoted
  rw [quotedChars, List.cons_append, List.cons_append, List.append_assoc, List.singleton_append,
    holdsCode_cons hmark, holdsCode_append_cons hmark, hquoted]

theorem holdsCode_quotedChars (hs : IsShown s) :
    HoldsCode emoji (quotedChars s) ↔ HoldsCode emoji s := by
  have happend := holdsCode_quotedChars_append (t := []) h hs
  rwa [List.append_nil, or_iff_left (not_holdsCode_of_not_mem List.not_mem_nil)] at happend

theorem holdsCode_quotedOption {root : Option String}
    (hroot : IsShown (Dialect.rootChars root)) :
    HoldsCode emoji (Text.quotedOption root).toList ↔ HoldsCode emoji (Dialect.rootChars root) := by
  cases root with
  | none =>
      have hnone {s : List Char} (hs : ':' ∉ s) : ¬ HoldsCode emoji s := not_holdsCode_of_not_mem hs
      exact iff_of_false (hnone (by decide)) (hnone List.not_mem_nil)
  | some root =>
      rw [Text.quotedOption, Text.quoted, String.toList_ofList]
      exact holdsCode_quotedChars h hroot

theorem holdsCode_intercalate {items : List (List Char)} (hitems : ∀ item ∈ items, IsShown item) :
    HoldsCode emoji (", ".toList.intercalate (items.map quotedChars)) ↔
      ∃ item ∈ items, HoldsCode emoji item := by
  induction items with
  | nil =>
      have hnone : ¬ HoldsCode emoji [] := not_holdsCode_of_not_mem List.not_mem_nil
      simpa using hnone
  | cons item more ih =>
      obtain ⟨hitem, hmore⟩ := List.forall_mem_cons.mp hitems
      rw [List.exists_mem_cons_iff]
      cases more with
      | nil => simpa using holdsCode_quotedChars h hitem
      | cons next more =>
          have hcomma : ¬ HoldsCode emoji [','] := not_holdsCode_of_not_mem (by decide)
          have hsplit (s behind : List Char) : s ++ ", ".toList ++ behind =
              (s ++ [',']) ++ ' ' :: behind := by
            simp
          rw [List.map_cons, List.map_cons, List.intercalate_cons_cons, hsplit,
            holdsCode_append_cons (parts_space emoji), holdsCode_quotedChars_append h hitem,
            or_iff_left hcomma]
          exact or_congr_right (ih hmore)

theorem holdsCode_quotedList {names : List String} (hnames : ∀ name ∈ names, IsShown name.toList) :
    HoldsCode emoji (Text.quotedList names).toList ↔
      ∃ name ∈ names, HoldsCode emoji name.toList := by
  have hitems : ∀ item ∈ names.map String.toList, IsShown item := by
    simpa using hnames
  have hquoted : (names.map Text.quoted).map String.toList =
      (names.map String.toList).map quotedChars := by
    simp [Text.quoted, Function.comp_def]
  have hsplit : (Text.quotedList names).toList =
      '[' :: (", ".toList.intercalate ((names.map String.toList).map quotedChars) ++ [']']) := by
    rw [Text.quotedList, String.toList_append, String.toList_append, String.toList_intercalate,
      hquoted]
    rfl
  rw [hsplit, holdsCode_cons (h.parts (by decide)), holdsCode_concat (h.parts (by decide)),
    holdsCode_intercalate h hitems]
  simp

end

/-! ### Texts of paths -/

theorem holdsCode_joined {separator : Char} (hseparator : Parts emoji separator)
    {parts : List (List Char)} (h : HoldsCode emoji (Text.joined [separator] parts)) :
    ∃ part ∈ parts, HoldsCode emoji part := by
  induction parts with
  | nil => exact absurd h (not_holdsCode_of_not_mem List.not_mem_nil)
  | cons first more ih =>
      cases more with
      | nil => exact ⟨first, List.mem_singleton_self first, h⟩
      | cons next more =>
          rw [Text.joined, List.append_assoc, List.singleton_append,
            holdsCode_append_cons hseparator] at h
          rcases h with hfirst | hmore
          · exact ⟨first, List.mem_cons_self, hfirst⟩
          · obtain ⟨part, hpart, hcode⟩ := ih hmore
            exact ⟨part, List.mem_cons_of_mem first hpart, hcode⟩

theorem holdsCode_of_mem_runs {isSeparator : Char → Bool} {part : List Char}
    (hpart : part ∈ Text.runs isSeparator s) (h : HoldsCode emoji part) : HoldsCode emoji s := by
  have hparted := Text.parted_runs (p := isSeparator) s
  obtain ⟨earlier, later, hsplit⟩ := List.append_of_mem hpart
  rw [hsplit] at hparted
  obtain ⟨before, after, rfl, -⟩ := hparted.exists_maximal
  exact h.of_infix ⟨before, after, rfl⟩

variable (h : emoji.HasPlainNames)

include h

theorem holdsCode_unified (s front : List Char) :
    HoldsCode emoji (front ++ Windows.unified s) ↔ HoldsCode emoji (front ++ s) := by
  induction s generalizing front with
  | nil => rfl
  | cons c rest ih =>
      have hslash : Parts emoji '/' := h.parts (by decide)
      have hbackslash : Parts emoji Windows.separator := h.parts (by decide)
      have hbehind := ih []
      have hkept := ih (front ++ [c])
      rw [List.nil_append, List.nil_append] at hbehind
      rw [List.append_assoc, List.append_assoc, List.singleton_append, List.singleton_append]
        at hkept
      rw [Windows.unified, List.map_cons]
      change HoldsCode emoji (front ++ _ :: Windows.unified rest) ↔ _
      by_cases hc : c = '/'
      · rw [if_pos hc, hc, holdsCode_append_cons hbackslash, holdsCode_append_cons hslash, hbehind]
      · rw [if_neg hc]
        exact hkept

theorem holdsCode_of_print_unix {text : String} {p : Path}
    (hp : Unix.dialect.parse text = .ok p) (hcode : HoldsCode emoji (Unix.dialect.print p).toList) :
    HoldsCode emoji text.toList := by
  have hslash : Parts emoji '/' := h.parts (by decide)
  rw [Unix.parse_eq] at hp
  split at hp
  · cases hp
  obtain rfl := Except.ok.inj hp
  have hjoined : HoldsCode emoji (Text.joined ['/'] (Text.runs Unix.isSeparator text.toList)) := by
    rw [Dialect.toList_print rfl, Unix.map_toList_runs] at hcode
    split at hcode
    · exact (holdsCode_cons hslash).mp hcode
    · exact hcode
  obtain ⟨part, hpart, hholds⟩ := holdsCode_joined hslash hjoined
  exact holdsCode_of_mem_runs hpart hholds

/-- Names hold no colons, and all roots but shares hold one at most. -/
theorem holdsCode_of_rooted {root : Option (List Char)} {rest names : List Char}
    (hrooted : Windows.Rooted s root rest) (hnames : ':' ∉ names)
    (hcode : HoldsCode emoji (root.getD [] ++ names)) : HoldsCode emoji s := by
  have hbackslash : Parts emoji '\\' := h.parts (by decide)
  have hfew (hcount : (root.getD []).count ':' ≤ 1) : False := by
    have htwo := hcode.two_le_count
    rw [List.count_append, List.count_eq_zero_of_not_mem hnames] at htwo
    omega
  have hdrive {letter : Char} (hletter : letter.isAlpha = true) : letter.toUpper ≠ ':' := by
    rw [← Char.isUpper_toUpper_eq_isAlpha] at hletter
    exact Windows.ne_of_isAlpha (Windows.letter_of_isUpper hletter).2.2.1 (by decide)
  cases hrooted with
  | none _ _ => exact (hfew (by decide)).elim
  | separator _ => exact (hfew (by decide)).elim
  | drive hletter _ => exact (hfew (by simp [hdrive hletter])).elim
  | driveRoot hletter => exact (hfew (by simp [hdrive hletter])).elim
  | @share behind server share rest hshared =>
      have hsplit : '\\' :: '\\' :: server ++ '\\' :: share ++ ['\\'] ++ names =
          ('\\' :: '\\' :: server ++ '\\' :: share) ++ '\\' :: names := by
        simp
      have hnone : ¬ HoldsCode emoji names := not_holdsCode_of_not_mem hnames
      rw [Option.getD_some, hsplit, holdsCode_append_cons hbackslash, or_iff_left hnone] at hcode
      refine hcode.of_infix (List.IsPrefix.isInfix ⟨rest, ?_⟩)
      rw [hshared.text]
      simp

theorem holdsCode_of_print_windows {text : String} {p : Path}
    (hp : Windows.dialect.parse text = .ok p)
    (hcode : HoldsCode emoji (Windows.dialect.print p).toList) : HoldsCode emoji text.toList := by
  have hwell := Windows.wellFormed_of_parse hp
  have hnames : ':' ∉ Text.joined ['\\'] (p.names.map String.toList) :=
    fun hmem => (Windows.isRest_joined hwell.names).noColon ':' hmem rfl
  obtain ⟨rest, hrooted, -⟩ := Windows.exists_rooted_of_parse hp
  have hroot : Dialect.rootChars p.root = (p.root.map String.toList).getD [] := by
    cases p.root <;> rfl
  rw [Dialect.toList_print rfl, hroot] at hcode
  have hunified := holdsCode_unified h text.toList []
  rw [List.nil_append, List.nil_append] at hunified
  exact hunified.mp (holdsCode_of_rooted h hrooted hnames hcode)

theorem not_holdsCode_of_parse {d : StandardDialect} {text : String} {p : Path}
    (hp : d.dialect.parse text = .ok p) (htext : ¬ HoldsCode emoji text.toList) :
    ¬ HoldsCode emoji (d.dialect.print p).toList ∧
      ¬ HoldsCode emoji (Dialect.rootChars p.root) ∧
      ∀ name ∈ p.names, ¬ HoldsCode emoji name.toList := by
  have hprint : ¬ HoldsCode emoji (d.dialect.print p).toList := by
    cases d with
    | unix => exact fun hcode => htext (holdsCode_of_print_unix h hp hcode)
    | windows => exact fun hcode => htext (holdsCode_of_print_windows h hp hcode)
  refine ⟨hprint, ?_, ?_⟩
  · intro hcode
    apply hprint
    rw [d.toList_print]
    exact hcode.of_infix (List.prefix_append _ _).isInfix
  · intro name hname hcode
    apply hprint
    rw [d.toList_print]
    exact hcode.of_infix
      ((Text.infix_joined (List.mem_map_of_mem hname)).trans (List.suffix_append _ _).isInfix)

end LexicalPath.Emoji
