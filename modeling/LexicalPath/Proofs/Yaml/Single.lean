import LexicalPath.Proofs.Yaml.Character
import LexicalPath.Yaml.Scalar.Quoted

namespace LexicalPath.Yaml

/-- What is left of a text in which a next line character stands for a line feed that is folded. -/
def faded (afterBreak : Bool) : List Char → List Char
  | [] => []
  | c :: rest =>
      if c = '\x85' then
        if afterBreak then '\n' :: faded true rest
        else if goesOn isWrittenBreak rest then faded true rest
        else ' ' :: faded false rest
      else c :: faded (isWrittenBreak c) rest

theorem not_mem_faded (afterBreak : Bool) (s : List Char) : '\x85' ∉ faded afterBreak s := by
  induction s generalizing afterBreak with
  | nil => simp [faded]
  | cons c rest ih =>
      unfold faded
      split
      case isTrue hc =>
        split
        · simp [ih]
        · split <;> simp [ih]
      case isFalse hc => simp [ih, Ne.symm hc]

theorem faded_eq_self {s : List Char} (h : '\x85' ∉ s) (afterBreak : Bool) :
    faded afterBreak s = s := by
  induction s generalizing afterBreak with
  | nil => rfl
  | cons c rest ih =>
      obtain ⟨hc, hrest⟩ := not_or.mp (mt List.mem_cons.mpr h)
      rw [faded, if_neg (Ne.symm hc), ih hrest]

theorem faded_eq_self_iff (afterBreak : Bool) (s : List Char) :
    faded afterBreak s = s ↔ '\x85' ∉ s := by
  constructor
  · intro h
    rw [← h]
    exact not_mem_faded afterBreak s
  · intro h
    exact faded_eq_self h afterBreak

theorem faded_true {s : List Char} (h : goesOn isWrittenBreak s = false) :
    faded true s = faded false s := by
  cases s with
  | nil => rfl
  | cons c rest =>
      have hc : c ≠ '\x85' := by
        rintro rfl
        exact absurd h (by simp [goesOn, isWrittenBreak, isBreak])
      rw [faded, faded, if_neg hc, if_neg hc]

/-! ### Texts that need no escape -/

theorem needsDouble_cons {c : Char} {rest : List Char} (h : needsDouble (c :: rest) = false) :
    needsEscape c = false ∧ needsDouble rest = false ∧
      (c = ' ' → goesOn isWrittenBreak rest = false) ∧
      (isWrittenBreak c = true → goesOn (· = ' ') rest = false) := by
  simp only [needsDouble, anyPair_cons, List.any_cons, Bool.or_eq_false_iff] at h ⊢
  obtain ⟨⟨hescape, hescapes⟩, hpair, hpairs⟩ := h
  refine ⟨hescape, ⟨hescapes, hpairs⟩, ?_, ?_⟩
  · rintro rfl
    have hspace : isWrittenBreak ' ' = false := by decide
    simpa [goesOn, hspace] using hpair
  · intro hc
    have hspace : c ≠ ' ' := by
      rintro rfl
      exact absurd hc (by decide)
    simpa [goesOn, hc, hspace] using hpair

/-! ### Characters that are read -/

theorem readSingle_end (gap : Gap) {tail : List Char} (htail : tail.head? ≠ some '\'') :
    readSingle gap ('\'' :: tail) = .ok (gap.text, tail) := by
  cases tail with
  | nil => rfl
  | cons c rest =>
      have hc : c ≠ '\'' := by simpa using htail
      rw [readSingle]
      · simp
      · intro more hquote heq
        exact hc (List.cons.inj heq).1

theorem readSingle_quote (gap : Gap) (rest : List Char) :
    readSingle gap ('\'' :: '\'' :: rest) =
      ScalarRead.behind (gap.text ++ ['\'']) (readSingle .none rest) := by
  rw [readSingle]

theorem readSingle_cons {gap : Gap} {c : Char} (hc : c ≠ '\'') (rest : List Char) :
    readSingle gap (c :: rest) =
      if gap.atLineStart && startsWithMark (c :: rest) then .error .markWithinText
      else if isSpace c then readSingle (gap.addSpace c) rest
      else if isBreak c then readSingle (gap.addBreak c) rest
      else ScalarRead.behind (gap.text ++ [c]) (readSingle .none rest) := by
  rw [readSingle, if_neg hc]
  intro more hquote
  exact absurd hquote hc

theorem readSingle_space (gap : Gap) (rest : List Char) :
    readSingle gap (' ' :: rest) = readSingle (gap.addSpace ' ') rest := by
  simp [readSingle_cons, startsWithMark_cons, isSpace]

theorem readSingle_break (gap : Gap) {c : Char} (hc : isBreak c = true) (rest : List Char) :
    readSingle gap (c :: rest) = readSingle (gap.addBreak c) rest := by
  have hcases : c ≠ '\'' ∧ c ≠ '-' ∧ c ≠ '.' ∧ isSpace c = false := by
    rcases isBreak_cases hc with rfl | rfl | rfl | rfl | rfl
    all_goals decide
  obtain ⟨hquote, hminus, hpoint, hspace⟩ := hcases
  simp [readSingle_cons hquote, startsWithMark_cons hminus hpoint, hspace, hc]

theorem readSingle_char {gap : Gap} (hgap : gap.atLineStart = false) {c : Char} (hc : c ≠ '\'')
    (hspace : isSpace c = false) (hbreak : isBreak c = false) (rest : List Char) :
    readSingle gap (c :: rest) =
      ScalarRead.behind (gap.text ++ [c]) (readSingle .none rest) := by
  simp [readSingle_cons hc, hgap, hspace, hbreak]

theorem readSingle_foldBreak (rest : List Char) :
    readSingle .none (foldBreak ++ rest) = readSingle (.lines (some '\n') [] 2) rest := by
  have hfeed : isBreak '\n' = true := by decide
  change readSingle .none ('\n' :: ' ' :: ' ' :: rest) = _
  rw [readSingle_break .none hfeed, readSingle_space, readSingle_space]
  rfl

/-! ### Texts -/

/-- The gap that is behind the text that was written so far, in front of the rest of the text. -/
inductive Fits : Gap → Place → List Char → Prop
  | none {place : Place} (hplace : place ≠ .breaks) (s : List Char) : Fits .none place s
  | spaces (held : List Char) {s : List Char} (hbreak : goesOn isWrittenBreak s = false) :
      Fits (.spaces held) .spaces s
  | lines (first : Option Char) (more : List Char) {s : List Char}
      (hbreak : goesOn isWrittenBreak s = false) (hspace : goesOn (· = ' ') s = false) :
      Fits (.lines first more 2) .word s

theorem Fits.atLineStart {gap : Gap} {place : Place} {s : List Char} (h : Fits gap place s) :
    gap.atLineStart = false := by
  cases h <;> rfl

/-- What is written behind a line break. -/
def writeBehindBreak (rest : List Char) : List Char :=
  if goesOn isWrittenBreak rest then writeSingle 0 .breaks rest
  else List.replicate continuationIndent ' ' ++ writeSingle continuationIndent .word rest

theorem writeSingle_break {c : Char} (hc : isWrittenBreak c = true) (column : Nat) (place : Place)
    (rest : List Char) :
    writeSingle column place (c :: rest) =
      (if place ≠ .breaks ∧ c = '\n' then ['\n'] else []) ++ c :: writeBehindBreak rest := by
  have hspace : c ≠ ' ' := by
    rintro rfl
    exact absurd hc (by decide)
  rw [writeSingle, if_neg hspace, if_pos hc]
  rfl

/-- The text is read back behind every gap that may be there. -/
def ReadsWithin (tail s : List Char) : Prop :=
  ∀ (column : Nat) (gap : Gap) (place : Place), Fits gap place s →
    readSingle gap ((writeSingle column place s).map unified ++ '\'' :: tail) =
      .ok (gap.text ++ faded false s, tail)

/-- The text, which begins with a line break, is read back behind other line breaks. -/
def ReadsBehindBreaks (tail s : List Char) : Prop :=
  ∀ (first : Char) (more : List Char), goesOn isWrittenBreak s = true →
    readSingle (.lines (some first) more 0)
        ((writeSingle 0 .breaks s).map unified ++ '\'' :: tail) =
      .ok ((if first ≠ '\n' then first :: more else more) ++ faded true s, tail)

theorem readSingle_writeBehindBreak {rest tail : List Char} (hwithin : ReadsWithin tail rest)
    (hbreaks : ReadsBehindBreaks tail rest) (first : Char) (more : List Char)
    (hspace : goesOn (· = ' ') rest = false) :
    readSingle (.lines (some first) more 0)
        ((writeBehindBreak rest).map unified ++ '\'' :: tail) =
      .ok ((if first ≠ '\n' then first :: more
        else if more.isEmpty && !goesOn isWrittenBreak rest then [' '] else more) ++
          faded true rest, tail) := by
  unfold writeBehindBreak
  split
  case isTrue hgoes =>
    rw [hbreaks first more hgoes]
    simp [hgoes]
  case isFalse hgoes =>
    have hgoes : goesOn isWrittenBreak rest = false := by simpa using hgoes
    have hread := hwithin continuationIndent _ _ (Fits.lines (some first) more hgoes hspace)
    have hskip : readSingle (.lines (some first) more 0)
        ((List.replicate continuationIndent ' ' ++
          writeSingle continuationIndent .word rest).map unified ++ '\'' :: tail) =
        readSingle (.lines (some first) more 2)
          ((writeSingle continuationIndent .word rest).map unified ++ '\'' :: tail) := by
      change readSingle _ (' ' :: ' ' :: _) = _
      rw [readSingle_space, readSingle_space]
      rfl
    rw [hskip, hread, faded_true hgoes, hgoes]
    simp [Gap.text]

theorem unified_break {c : Char} (hc : isWrittenBreak c = true) (rest : List Char) :
    isBreak (unified c) = true ∧ faded true (c :: rest) = unified c :: faded true rest := by
  rcases isWrittenBreak_cases hc with rfl | rfl | rfl | rfl
  all_goals exact ⟨by decide, rfl⟩

theorem readsBehindBreaks_cons {c : Char} {rest tail : List Char}
    (hspace : isWrittenBreak c = true → goesOn (· = ' ') rest = false)
    (hwithin : ReadsWithin tail rest) (hbreaks : ReadsBehindBreaks tail rest) :
    ReadsBehindBreaks tail (c :: rest) := by
  intro first more hc
  have hc : isWrittenBreak c = true := by simpa [goesOn] using hc
  obtain ⟨hunified, hfaded⟩ := unified_break hc rest
  rw [writeSingle_break hc]
  simp only [ne_eq, not_true_eq_false, false_and, if_false, List.nil_append, List.map_cons,
    List.cons_append]
  rw [readSingle_break _ hunified, Gap.addBreak,
    readSingle_writeBehindBreak hwithin hbreaks first _ (hspace hc), hfaded]
  by_cases hfirst : first = '\n' <;> simp [hfirst]

theorem readSingle_writeSingle_break {c : Char} (hc : isWrittenBreak c = true) {place : Place}
    (hplace : place ≠ .breaks) (column : Nat) (rest tail : List Char) :
    readSingle .none ((writeSingle column place (c :: rest)).map unified ++ tail) =
      readSingle (.lines (some (unified c)) (if c = '\n' then ['\n'] else []) 0)
        ((writeBehindBreak rest).map unified ++ tail) := by
  obtain ⟨hunified, -⟩ := unified_break hc rest
  rw [writeSingle_break hc]
  by_cases hfeed : c = '\n'
  · subst hfeed
    rw [if_pos ⟨hplace, rfl⟩]
    exact (readSingle_break .none hunified _).trans (readSingle_break _ hunified _)
  · rw [if_neg (fun h => hfeed h.2), if_neg hfeed]
    exact readSingle_break .none hunified _

theorem readsWithin_break {c : Char} {rest tail : List Char} (hc : isWrittenBreak c = true)
    (hspace : goesOn (· = ' ') rest = false) (hwithin : ReadsWithin tail rest)
    (hbreaks : ReadsBehindBreaks tail rest) : ReadsWithin tail (c :: rest) := by
  intro column gap place hfits
  have hgoes : goesOn isWrittenBreak (c :: rest) = true := hc
  cases hfits with
  | spaces held hbreak => simp [hgoes] at hbreak
  | lines first more hbreak _ => simp [hgoes] at hbreak
  | none hplace =>
      rw [readSingle_writeSingle_break hc hplace,
        readSingle_writeBehindBreak hwithin hbreaks _ _ hspace]
      rcases isWrittenBreak_cases hc with rfl | rfl | rfl | rfl
      · rfl
      · cases hends : goesOn isWrittenBreak rest with
        | true => simp [unified, Gap.text, faded, hends]
        | false => simp [unified, Gap.text, faded, hends, faded_true]
      · rfl
      · rfl

theorem readsWithin_space {rest tail : List Char} (hbreak : goesOn isWrittenBreak rest = false)
    (hwithin : ReadsWithin tail rest) : ReadsWithin tail (' ' :: rest) := by
  intro column gap place hfits
  have hfaded : faded false (' ' :: rest) = ' ' :: faded false rest := rfl
  -- A space that is kept adds to the gap.
  have hkept (held : List Char) :
      readSingle (.spaces (held ++ [' ']))
          ((writeSingle (column + 1) .spaces rest).map unified ++ '\'' :: tail) =
        .ok (held ++ faded false (' ' :: rest), tail) := by
    rw [hwithin (column + 1) _ _ (.spaces (held ++ [' ']) hbreak), hfaded]
    simp [Gap.text]
  rw [writeSingle, if_pos rfl]
  cases hfits with
  | lines first more _ hspace => simp [goesOn] at hspace
  | spaces held _ =>
      rw [if_neg (by simp)]
      exact (readSingle_space _ _).trans (hkept held)
  | none hplace =>
      split
      case isTrue hfold =>
        have hnext : goesOn (· = ' ') rest = false := by
          simp only [Bool.and_eq_true, Bool.not_eq_true'] at hfold
          exact hfold.2
        rw [List.map_append, List.append_assoc, hfaded]
        exact (readSingle_foldBreak _).trans
          (hwithin continuationIndent _ _ (.lines (some '\n') [] hbreak hnext))
      case isFalse hfold => exact (readSingle_space _ _).trans (hkept [])

theorem readsWithin_char {c : Char} {rest tail : List Char} (hescape : needsEscape c = false)
    (hspace : c ≠ ' ') (hbreak : isWrittenBreak c = false) (hwithin : ReadsWithin tail rest) :
    ReadsWithin tail (c :: rest) := by
  intro column gap place hfits
  have hline : c ≠ '\x85' := by
    rintro rfl
    exact absurd hbreak (by decide)
  have hfaded : faded false (c :: rest) = c :: faded false rest := by
    rw [faded, if_neg hline, hbreak]
  have hnext (column : Nat) :
      ScalarRead.behind (gap.text ++ [c])
          (readSingle .none ((writeSingle column .word rest).map unified ++ '\'' :: tail)) =
        .ok (gap.text ++ faded false (c :: rest), tail) := by
    rw [hwithin column _ _ (.none (by decide) rest), hfaded]
    simp [ScalarRead.behind, Gap.text]
  rw [writeSingle, if_neg hspace, hbreak, if_neg (by decide)]
  by_cases hquote : c = '\''
  · subst hquote
    rw [if_pos rfl]
    exact (readSingle_quote _ _).trans (hnext _)
  · rw [if_neg hquote, List.map_cons, unified_of_needsEscape hescape hbreak]
    exact (readSingle_char hfits.atLineStart hquote (isSpace_of_needsEscape hescape hspace)
      (isBreak_of_needsEscape hescape hbreak) _).trans (hnext _)

theorem readsWithin {s tail : List Char} (hs : needsDouble s = false)
    (htail : tail.head? ≠ some '\'') : ReadsWithin tail s ∧ ReadsBehindBreaks tail s := by
  induction s with
  | nil =>
      constructor
      · intro column gap place hfits
        simp [writeSingle, readSingle_end gap htail, faded]
      · intro first more hgoes
        cases hgoes
  | cons c rest ih =>
      obtain ⟨hescape, hrest, hbreak, hspace⟩ := needsDouble_cons hs
      obtain ⟨hwithin, hbreaks⟩ := ih hrest
      refine ⟨?_, readsBehindBreaks_cons hspace hwithin hbreaks⟩
      by_cases hc : c = ' '
      · subst hc
        exact readsWithin_space (hbreak rfl) hwithin
      · cases hends : isWrittenBreak c with
        | false => exact readsWithin_char hescape hc hends hwithin
        | true => exact readsWithin_break hends (hspace hends) hwithin hbreaks

/-- A text that needs no escape is read back from single quotes as what is left of it. -/
theorem readSingle_writeSingle {s tail : List Char} (hs : needsDouble s = false)
    (htail : tail.head? ≠ some '\'') (column : Nat) :
    readSingle .none ((writeSingle column .spaces s).map unified ++ '\'' :: tail) =
      .ok (faded false s, tail) :=
  (readsWithin hs htail).1 column .none .spaces (.none (by decide) s)

end LexicalPath.Yaml
