import LexicalPath.Proofs.Yaml.Character
import LexicalPath.Yaml.Scalar.Plain

namespace LexicalPath.Yaml

/-- The end of a text that may be written without quotes. -/
structure PlainEnd (s : List Char) : Prop where
  blank : ∀ c ∈ s, isBlank c = true → c = ' '
  mark : anyPair (fun a b => isBlank a && b = '#') s = false
  colon : anyPair (fun a b => a = ':' && isBlank b) s = false
  last : ∀ c ∈ s.getLast?, c ≠ ':' ∧ c ≠ ' '

namespace PlainEnd

variable {c : Char} {rest : List Char}

theorem tail (h : PlainEnd (c :: rest)) : PlainEnd rest where
  blank := fun d hd => h.blank d (List.mem_cons_of_mem c hd)
  mark := by
    have hmark := h.mark
    rw [anyPair_cons, Bool.or_eq_false_iff] at hmark
    exact hmark.2
  colon := by
    have hcolon := h.colon
    rw [anyPair_cons, Bool.or_eq_false_iff] at hcolon
    exact hcolon.2
  last := by
    cases rest with
    | nil => simp
    | cons d more => simpa using h.last

theorem behindSpace (h : PlainEnd (' ' :: rest)) : ∃ d more, rest = d :: more ∧ d ≠ '#' := by
  cases rest with
  | nil => exact absurd rfl (h.last ' ' rfl).2
  | cons d more =>
      refine ⟨d, more, rfl, ?_⟩
      rintro rfl
      exact absurd h.mark (by simp [anyPair_cons, goesOn, isBlank, isSpace])

theorem behindColon (h : PlainEnd (':' :: rest)) : blankNext rest = false := by
  cases rest with
  | nil => exact absurd rfl (h.last ':' rfl).1
  | cons d more =>
      have hcolon := h.colon
      rw [anyPair_cons, Bool.or_eq_false_iff] at hcolon
      simpa [goesOn, blankNext] using hcolon.1

end PlainEnd

/-- A text that may be written without quotes: one that ends like that, and begins with a character
that is used for nothing else. -/
structure PlainText (c : Char) (rest : List Char) : Prop extends PlainEnd (c :: rest) where
  bare : isBlank c = false
  order : c ≠ '\ufeff'
  markup : "#,[]\x7b\x7d&*!|>'\"%@\x60".toList.contains c = false
  indicator : c = '?' ∨ c = ':' ∨ c = '-' → blankNext rest = false

theorem blankNext_writePlain (column : Nat) (place : Place) (s rest : List Char) :
    blankNext (writePlain column place s ++ '\n' :: rest) = blankNext s := by
  cases s with
  | nil => rfl
  | cons c more =>
      rw [writePlain]
      split
      case isTrue hc =>
        subst hc
        split <;> rfl
      case isFalse hc => rfl

/-! ### Characters that are read -/

theorem readPlain_space (gap : Gap) (rest : List Char) :
    readPlain false 1 gap (' ' :: rest) = readPlain false 1 (gap.addSpace ' ') rest := by
  simp [readPlain, startsWithMark_cons]

theorem readPlain_feed (gap : Gap) (rest : List Char) :
    readPlain false 1 gap ('\n' :: rest) = readPlain false 1 (gap.addBreak '\n') rest := by
  simp [readPlain, startsWithMark_cons, isBreak]

theorem readPlain_foldBreak (rest : List Char) :
    readPlain false 1 .none (foldBreak ++ rest) =
      readPlain false 1 (.lines (some '\n') [] 2) rest := by
  change readPlain false 1 .none ('\n' :: ' ' :: ' ' :: rest) = _
  rw [readPlain_feed, readPlain_space, readPlain_space]
  rfl

theorem readPlain_lineEnd {rest : List Char} (hrest : rest = [] ∨ blankNext rest = false) :
    readPlain false 1 .none ('\n' :: rest) = ([], rest, true) := by
  rw [readPlain_feed]
  cases rest with
  | nil => rfl
  | cons c more =>
      have hc : isBlank c = false := by simpa [blankNext] using hrest
      simp only [isBlank, isSpace, Bool.or_eq_false_iff, decide_eq_false_iff_not] at hc
      simp [readPlain, Gap.addBreak, Gap.endsBefore, Gap.hasBreak, hc]

theorem readPlain_char {gap : Gap} (hgap : gap.atLineStart = false)
    (hmargin : gap.endsBefore 1 = false) {c : Char} {rest : List Char}
    (hmark : gap = .none ∨ c ≠ '#') (hc : isBlank c = false)
    (hcolon : c = ':' → blankNext rest = false) :
    readPlain false 1 gap (c :: rest) =
      (gap.text ++ c :: (readPlain false 1 .none rest).1, (readPlain false 1 .none rest).2) := by
  have hword : endsWord false c rest = false := by
    simpa [endsWord, hc] using hcolon
  have hmark' : ¬ (gap ≠ .none ∧ c = '#') := by
    rintro ⟨hne, heq⟩
    exact hmark.elim hne fun h => h heq
  simp only [isBlank, isSpace, Bool.or_eq_false_iff, decide_eq_false_iff_not] at hc
  simp [readPlain, hgap, hmargin, hword, hmark', hc]

/-! ### Texts -/

/-- The gap that is behind the text that was written so far, in front of the end of the text. -/
inductive PlainFits : Gap → Place → List Char → Prop
  | none (place : Place) (s : List Char) : PlainFits .none place s
  | spaces (held : List Char) {c : Char} (rest : List Char) (hmark : c ≠ '#') :
      PlainFits (.spaces held) .spaces (c :: rest)
  | fold {c : Char} (rest : List Char) (hmark : c ≠ '#') (hspace : c ≠ ' ') :
      PlainFits (.lines (some '\n') [] 2) .word (c :: rest)

theorem readPlain_written {s rest : List Char} (hs : PlainEnd s)
    (hrest : rest = [] ∨ blankNext rest = false) (column : Nat) {gap : Gap} {place : Place}
    (hfits : PlainFits gap place s) :
    readPlain false 1 gap (writePlain column place s ++ '\n' :: rest) =
      (gap.text ++ s, rest, true) := by
  induction s generalizing column gap place with
  | nil =>
      cases hfits
      exact readPlain_lineEnd hrest
  | cons c more ih =>
      rw [writePlain]
      split
      case isTrue hc =>
        subst hc
        obtain ⟨d, last, rfl, hd⟩ := hs.behindSpace
        -- A space that is kept adds to the gap.
        have hkept (held : List Char) := ih hs.tail (column + 1) (.spaces (held ++ [' ']) last hd)
        cases hfits with
        | fold _ _ hspace => exact absurd rfl hspace
        | spaces held _ hmark =>
            rw [if_neg (by simp), List.cons_append, readPlain_space]
            simpa [Gap.addSpace, Gap.text] using hkept held
        | none =>
            split
            case isTrue hfold =>
              have hspace : d ≠ ' ' := by
                simpa [goesOn] using (Bool.and_eq_true_iff.mp hfold).2
              rw [List.append_assoc, readPlain_foldBreak]
              exact ih hs.tail _ (.fold last hd hspace)
            case isFalse hfold =>
              rw [List.cons_append, readPlain_space]
              simpa [Gap.addSpace, Gap.text] using hkept []
      case isFalse hc =>
        have hblank : isBlank c = false := by
          rw [Bool.eq_false_iff]
          exact fun h => hc (hs.blank c (by simp) h)
        have hcolon : c = ':' →
            blankNext (writePlain (column + 1) .word more ++ '\n' :: rest) = false := by
          rintro rfl
          rw [blankNext_writePlain]
          exact hs.behindColon
        rw [List.cons_append, readPlain_char _ _ _ hblank hcolon,
          ih hs.tail _ (.none .word more)]
        · simp [Gap.text]
        · cases hfits <;> rfl
        · cases hfits <;> rfl
        · cases hfits with
          | none => exact .inl rfl
          | spaces _ _ hmark => exact .inr hmark
          | fold _ hmark _ => exact .inr hmark

end LexicalPath.Yaml
