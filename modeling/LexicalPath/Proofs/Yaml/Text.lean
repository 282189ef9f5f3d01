import LexicalPath.Proofs.Yaml.Double
import LexicalPath.Proofs.Yaml.Lexer
import LexicalPath.Proofs.Yaml.Single

namespace LexicalPath.Yaml

/-- The text that is read back for a text. -/
def readBack (s : List Char) : List Char :=
  if needsDouble s then s else faded false s

theorem readBack_eq_self_iff (s : List Char) :
    readBack s = s ↔ ('\x85' ∈ s → needsDouble s = true) := by
  unfold readBack
  cases h : needsDouble s with
  | true => simp
  | false => simp [faded_eq_self_iff]

def readBackText (s : String) : String :=
  String.ofList (readBack s.toList)

theorem readBackText_eq_self_iff (s : String) :
    readBackText s = s ↔ ('\x85' ∈ s.toList → needsDouble s.toList = true) := by
  rw [← readBack_eq_self_iff, readBackText, ← String.toList_inj, String.toList_ofList]

def textToken (s : List Char) : Token :=
  .scalar (String.ofList (readBack s)) (Style.of s = .plain)

/-! ### Ways of writing -/

theorem needsEscape_of_needsDouble {s : List Char} (h : needsDouble s = false) {c : Char}
    (hc : c ∈ s) : needsEscape c = false := by
  rw [needsDouble, Bool.or_eq_false_iff] at h
  simpa using List.any_eq_false.mp h.1 c hc

theorem needsDouble_iff (s : List Char) : needsDouble s = true ↔ Style.of s = .double := by
  unfold Style.of
  split
  · simp_all
  · split <;> simp_all

theorem needsDouble_of_style {s : List Char} (h : Style.of s ≠ .double) :
    needsDouble s = false := by
  rw [Bool.eq_false_iff]
  exact mt (needsDouble_iff s).mp h

theorem Style.of_eq_plain {s : List Char} (h : Style.of s = .plain) :
    needsDouble s = false ∧ Tag.ofPlain s = .text ∧ (∀ c ∈ s, isWrittenBreak c = false) ∧
      startsLikeMarkup s = false ∧ holdsMarkup s = false ∧ s.head?.any isOuter = false ∧
        s.getLast?.any isOuter = false := by
  unfold Style.of at h
  split at h
  · cases h
  · split at h
    · cases h
    · simp_all

theorem plainEnd_of_style {s : List Char} (h : Style.of s = .plain) : PlainEnd s := by
  obtain ⟨hdouble, -, hbreak, -, hmarkup, -, hlast⟩ := Style.of_eq_plain h
  simp only [holdsMarkup, Bool.or_eq_false_iff, decide_eq_false_iff_not] at hmarkup
  refine ⟨?_, hmarkup.1.1, hmarkup.1.2, ?_⟩
  · intro c hc hblank
    apply Decidable.byContradiction
    intro hspace
    have hescape := needsEscape_of_needsDouble hdouble hc
    rw [isBlank_of_needsEscape hescape (hbreak c hc) hspace] at hblank
    cases hblank
  · intro c hc
    have hc : s.getLast? = some c := hc
    have houter : isOuter c = false := by simpa [hc] using hlast
    constructor
    · rintro rfl
      exact hmarkup.2 hc
    · rintro rfl
      exact absurd houter (by decide)

theorem plainText_of_style {s : List Char} (h : Style.of s = .plain) :
    ∃ c rest, s = c :: rest ∧ PlainText c rest := by
  obtain ⟨hdouble, htag, hbreak, hmarkup, -, hhead, -⟩ := Style.of_eq_plain h
  cases s with
  | nil => exact absurd htag (by decide)
  | cons c rest =>
      have hescape : needsEscape c = false := needsEscape_of_needsDouble hdouble (by simp)
      have hspace : c ≠ ' ' := by
        rintro rfl
        exact absurd hhead (by simp [isOuter])
      simp only [startsLikeMarkup, Bool.or_eq_false_iff] at hmarkup
      refine ⟨c, rest, rfl, plainEnd_of_style h, ?_, ?_, hmarkup.2.1, ?_⟩
      · exact isBlank_of_needsEscape hescape (hbreak c (by simp)) hspace
      · rintro rfl
        exact absurd hescape (by decide)
      · intro hc
        simpa [or_assoc, hc] using hmarkup.2.2

/-! ### Characters -/

theorem mem_writePlain {column : Nat} {place : Place} {s : List Char} {c : Char}
    (hc : c ∈ writePlain column place s) : c ∈ s ∨ c = '\n' ∨ c = ' ' := by
  induction s generalizing column place with
  | nil => cases hc
  | cons d rest ih =>
      have hbreak : foldBreak = ['\n', ' ', ' '] := rfl
      rw [writePlain] at hc
      grind

theorem mem_writeSingle {column : Nat} {place : Place} {s : List Char} {c : Char}
    (hc : c ∈ writeSingle column place s) : c ∈ s ∨ c = '\n' ∨ c = ' ' := by
  induction s generalizing column place with
  | nil => cases hc
  | cons d rest ih =>
      have hbreak : foldBreak = ['\n', ' ', ' '] := rfl
      have hspaces : List.replicate continuationIndent ' ' = [' ', ' '] := rfl
      rw [writeSingle] at hc
      grind

theorem isKept_of_style {s : List Char} (h : Style.of s = .plain) {c : Char} (hc : c ∈ s) :
    IsKept c := by
  obtain ⟨hdouble, -, hbreak, -⟩ := Style.of_eq_plain h
  have hescape := needsEscape_of_needsDouble hdouble hc
  exact ⟨(isSound_of_needsEscape hescape).1, unified_of_needsEscape hescape (hbreak c hc)⟩

theorem readBack_of_style {s : List Char} (h : Style.of s = .plain) : readBack s = s := by
  rw [readBack_eq_self_iff]
  intro hline
  exact absurd (isKept_of_style h hline).2 (by decide)

theorem isKept_writePlain {column : Nat} {place : Place} {s : List Char}
    (h : Style.of s = .plain) {c : Char} (hc : c ∈ writePlain column place s) : IsKept c := by
  rcases mem_writePlain hc with hc | rfl | rfl
  · exact isKept_of_style h hc
  · decide
  · decide

theorem isSound_writeText {column : Nat} {s : List Char} {c : Char}
    (hc : c ∈ writeText column s) : IsSound c := by
  have hspace : IsKept ' ' := by decide
  unfold writeText at hc
  cases hstyle : Style.of s with
  | plain =>
      rw [hstyle] at hc
      rcases List.mem_cons.mp hc with rfl | hc
      · exact hspace.isSound
      · exact (isKept_writePlain hstyle hc).isSound
  | single =>
      have hquote : IsKept '\'' := by decide
      have hdouble := needsDouble_of_style (s := s) (by simp [hstyle])
      simp only [hstyle, List.cons_append, List.mem_cons, List.mem_append, List.not_mem_nil,
        or_false] at hc
      rcases hc with rfl | rfl | hc | rfl
      · exact hspace.isSound
      · exact hquote.isSound
      · rcases mem_writeSingle hc with hc | rfl | rfl
        · exact isSound_of_needsEscape (needsEscape_of_needsDouble hdouble hc)
        · exact IsKept.isSound (by decide)
        · exact hspace.isSound
      · exact hquote.isSound
  | double =>
      have hquote : IsKept '"' := by decide
      simp only [hstyle, List.cons_append, List.mem_cons, List.mem_append, List.not_mem_nil,
        or_false] at hc
      rcases hc with rfl | rfl | hc | rfl
      · exact hspace.isSound
      · exact hquote.isSound
      · exact (isKept_writeDouble hc).isSound
      · exact hquote.isSound

/-! ### Tokens -/

theorem lexes_writeText {p : Position} {tokens all : List Token} {keyAllowed : Bool}
    (column : Nat) (s : List Char) {rest : List Char} (hrest : Lexer.StartsToken rest)
    (h : ∀ p' : Position, p'.column = 0 →
      (Lexer.idle [0] p' (tokens ++ [textToken s]) true rest).Lexes all) :
    (Lexer.idle [0] p tokens keyAllowed
      ((writeText column s).map unified ++ '\n' :: rest)).Lexes all := by
  unfold textToken at h
  unfold writeText
  cases hstyle : Style.of s with
  | plain =>
      simp only [readBack_of_style hstyle, hstyle, decide_true] at h
      obtain ⟨c, more, rfl, htext⟩ := plainText_of_style hstyle
      simp only [List.map_cons, map_unified fun c hc => isKept_writePlain hstyle hc]
      exact Lexer.lexes_plain htext _ hrest h
  | single =>
      have hdouble := needsDouble_of_style (s := s) (by simp [hstyle])
      simp only [readBack, hstyle, hdouble, Bool.false_eq_true, if_false, reduceCtorEq,
        decide_false] at h
      have htail : ('\n' :: rest).head? ≠ some '\'' := by simp
      have hread := readSingle_writeSingle hdouble htail (column + 2)
      rw [List.append_cons] at hread
      simp only [List.map_cons, List.map_append, List.map_nil, List.cons_append]
      have hquote : Lexer.StartsToken ['\''] := by
        apply Lexer.startsToken_cons <;> decide
      exact Lexer.lexes_quoted hquote (fun _ _ => by simp [Lexer.fetch]) hread hrest h
  | double =>
      have hdouble : needsDouble s = true := (needsDouble_iff s).mpr hstyle
      simp only [readBack, hstyle, hdouble, if_true, reduceCtorEq, decide_false] at h
      have hread := readDouble_writeDouble (column + 2) s ('\n' :: rest)
      rw [List.append_cons] at hread
      simp only [List.map_cons, List.map_append, List.map_nil, List.cons_append,
        map_unified fun c hc => isKept_writeDouble hc]
      have hquote : Lexer.StartsToken ['"'] := by
        apply Lexer.startsToken_cons <;> decide
      exact Lexer.lexes_quoted hquote (fun _ _ => by simp [Lexer.fetch]) hread hrest h

end LexicalPath.Yaml
