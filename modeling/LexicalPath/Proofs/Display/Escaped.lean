import LexicalPath.Proofs.Display.Markup

/-!
What is shown of an escaped text. It is not always the text: a backslash in front of an opening
bracket that starts no tag is lost, and one that stands alone at the end is shown twice
(`chars_pieces_escape`). All other texts are shown as they are (`shownAs_eq_self_iff`).
-/

namespace LexicalPath.Markup

open Display (Styled)

/-- The text begins with an opening bracket that is not the start of a tag. -/
def startsBare : List Char → Bool
  | [] => false
  | c :: rest => c = '[' && (tag? rest).isNone

/-- A text without the backslashes that stand directly in front of such brackets. -/
def bared : List Char → List Char
  | [] => []
  | c :: rest => if c = '\\' ∧ startsBare rest then bared rest else c :: bared rest

/-- What is shown of a text that is escaped. -/
def shownAs (s : List Char) : List Char :=
  if endsWithOneBackslash s then bared s ++ ['\\'] else bared s

/-- A backslash stands directly in front of an opening bracket that is not the start of a tag. -/
def HoldsBareBracket (s : List Char) : Prop :=
  ∃ before rest, s = before ++ '\\' :: '[' :: rest ∧ tag? rest = none

/-! ### Backslashes at the end -/

theorem endsWithOneBackslash_append_cons {c : Char} (hc : c ≠ '\\') (front rest : List Char) :
    endsWithOneBackslash (front ++ c :: rest) = endsWithOneBackslash rest := by
  have hreverse : (front ++ c :: rest).reverse = rest.reverse ++ c :: front.reverse := by simp
  unfold endsWithOneBackslash
  rw [hreverse]
  match rest.reverse with
  | [] => simp [hc]
  | [d] => by_cases hd : d = '\\' <;> simp [hd, hc]
  | d :: e :: _ => by_cases hd : d = '\\' <;> by_cases he : e = '\\' <;> simp [hd, he]

theorem backslashes_append_cons (held : Nat) (rest : List Char) :
    backslashes held ++ '\\' :: rest = backslashes (held + 1) ++ rest := by
  rw [backslashes, backslashes, List.replicate_succ']
  simp

theorem endsWithOneBackslash_escapeTags (held : Nat) (s : List Char) :
    endsWithOneBackslash (escapeTags held s) = endsWithOneBackslash (backslashes held ++ s) := by
  induction s generalizing held with
  | nil => rw [escapeTags, List.append_nil]
  | cons c rest ih =>
      by_cases hbackslash : c = '\\'
      · rw [escapeTags, if_pos hbackslash, ih, hbackslash, backslashes_append_cons]
      · have hfront : ∃ front, escapeTags held (c :: rest) = front ++ c :: escapeTags 0 rest := by
          rw [escapeTags, if_neg hbackslash]
          split <;> exact ⟨_, rfl⟩
        obtain ⟨front, hfront⟩ := hfront
        rw [hfront, endsWithOneBackslash_append_cons hbackslash,
          endsWithOneBackslash_append_cons hbackslash, ih]
        rfl

theorem escape_eq (s : List Char) :
    escape s = escapeTags 0 s ++ backslashes (if endsWithOneBackslash s then 1 else 0) := by
  have hends : endsWithOneBackslash (escapeTags 0 s) = endsWithOneBackslash s :=
    endsWithOneBackslash_escapeTags 0 s
  rw [escape, hends]
  split
  · rfl
  · exact (List.append_nil _).symm

/-! ### Tags that stay tags -/

theorem upToBracket?_escapeTags_of_some {s text : List Char} (h : upToBracket? s = some text)
    (held : Nat) (t : List Char) :
    upToBracket? (escapeTags held s ++ t) = some (backslashes held ++ text) := by
  have hheld {rest found : List Char} (held : Nat) (h : upToBracket? rest = some found) :
      upToBracket? (backslashes held ++ rest) = some (backslashes held ++ found) := by
    unfold backslashes
    induction held with
    | zero => exact h
    | succ held ih =>
        rw [List.replicate_succ, List.cons_append, upToBracket?_cons (by decide) (by decide), ih]
        rfl
  induction s generalizing held text with
  | nil => cases h
  | cons c rest ih =>
      by_cases hclosing : c = ']'
      · subst hclosing
        obtain rfl := Option.some.inj h
        rw [escapeTags_cons_of_ne (by decide) (by decide), List.append_assoc]
        exact hheld held rfl
      by_cases hopening : c = '['
      · subst hopening
        cases h
      rw [upToBracket?_cons hopening hclosing] at h
      obtain ⟨more, hmore, rfl⟩ := Option.map_eq_some_iff.mp h
      by_cases hbackslash : c = '\\'
      · rw [escapeTags, if_pos hbackslash, ih hmore, hbackslash, backslashes_append_cons]
      · rw [escapeTags_cons_of_ne hbackslash hopening, List.append_assoc, List.cons_append]
        apply hheld
        rw [upToBracket?_cons hopening hclosing, ih hmore]
        rfl

theorem tag?_escapeTags_eq {t : List Char} (ht : ']' ∉ t) (s : List Char) :
    tag? (escapeTags 0 s ++ t) = tag? s := by
  cases h : tag? s with
  | none => exact tag?_escapeTags ht h
  | some text =>
      cases s with
      | nil => cases h
      | cons c rest =>
          rw [tag?] at h
          split at h
          · rename_i hstarts
            obtain ⟨more, hmore, rfl⟩ := Option.map_eq_some_iff.mp h
            have hbackslash : c ≠ '\\' := by
              rintro rfl
              exact absurd hstarts (by decide)
            have hopening : c ≠ '[' := by
              rintro rfl
              exact absurd hstarts (by decide)
            rw [escapeTags_cons_of_ne hbackslash hopening, List.append_assoc, List.cons_append]
            change tag? (c :: (escapeTags 0 rest ++ t)) = _
            rw [tag?, if_pos hstarts, upToBracket?_escapeTags_of_some hmore 0 t]
            rfl
          · cases h

/-! ### What is shown -/

theorem bared_backslashes_of_not_startsBare {rest : List Char} (h : startsBare rest = false)
    (held : Nat) : bared (backslashes held ++ rest) = backslashes held ++ bared rest := by
  unfold backslashes
  induction held with
  | zero => rfl
  | succ held ih =>
      have hnext : startsBare (List.replicate held '\\' ++ rest) = false := by
        cases held with
        | zero => exact h
        | succ held => rfl
      rw [List.replicate_succ, List.cons_append, bared, if_neg (by simp [hnext]), ih]
      rfl

theorem bared_backslashes_of_startsBare {rest : List Char} (h : startsBare rest = true)
    (held : Nat) : bared (backslashes held ++ rest) = backslashes (held - 1) ++ bared rest := by
  cases held with
  | zero => rfl
  | succ held =>
      have hlast : bared ('\\' :: rest) = bared rest := by rw [bared, if_pos ⟨rfl, h⟩]
      rw [← backslashes_append_cons, bared_backslashes_of_not_startsBare rfl, hlast]
      rfl

theorem bared_cons_of_ne {c : Char} (hc : c ≠ '\\') (rest : List Char) :
    bared (c :: rest) = c :: bared rest := by
  rw [bared, if_neg fun h => hc h.1]

def Piece.char? : Piece → Option Char
  | .char c => some c
  | .tag _ | .cut => none

theorem filterMap_char?_map (s : List Char) : (s.map .char).filterMap Piece.char? = s := by
  rw [List.filterMap_map]
  exact List.filterMap_some

theorem pieces_opening_of_none (held : Nat) {s : List Char} (h : tag? s = none) :
    pieces 0 .outside (backslashes held ++ '[' :: s) =
      (backslashes (held - 1)).map .char ++ .char '[' :: pieces 0 .outside s := by
  rw [pieces_backslashes, pieces, if_neg (by decide), if_pos rfl, h, Nat.zero_add]

theorem pieces_opening_of_some (held : Nat) {s text : List Char} (h : tag? s = some text) :
    pieces 0 .outside (backslashes (2 * held + 1) ++ '[' :: s) =
      .cut :: (backslashes held).map .char ++ .cut :: .char '[' :: pieces 0 .escaped s := by
  have hhalf : (0 + (2 * held + 1)) / 2 = held := by omega
  have hodd : ¬ (0 + (2 * held + 1)) % 2 = 0 := by omega
  rw [pieces_backslashes, pieces, if_neg (by decide), if_pos rfl, h]
  simp only [hhalf, if_neg hodd]

theorem upToBracket?_isSome_of_tag? {s text : List Char} (h : tag? s = some text) :
    (upToBracket? s).isSome = true := by
  cases s with
  | nil => cases h
  | cons c rest =>
      rw [tag?] at h
      split at h
      · rename_i hstarts
        have hopening : c ≠ '[' := by
          rintro rfl
          exact absurd hstarts (by decide)
        have hclosing : c ≠ ']' := by
          rintro rfl
          exact absurd hstarts (by decide)
        obtain ⟨more, hmore, -⟩ := Option.map_eq_some_iff.mp h
        rw [upToBracket?_cons hopening hclosing, hmore]
        rfl
      · cases h

/-- The characters among the pieces of a text that was escaped behind some backslashes, with some
more at its end. In an escaped tag there is no bracket in front of which backslashes are lost. -/
theorem chars_pieces_escapeTags (held : Nat) (s : List Char) (n : Nat) :
    (pieces 0 .outside (escapeTags held s ++ backslashes n)).filterMap Piece.char? =
        bared (backslashes held ++ s) ++ backslashes n ∧
      ((upToBracket? s).isSome = true →
        (pieces 0 .escaped (escapeTags held s ++ backslashes n)).filterMap Piece.char? =
          bared (backslashes held ++ s) ++ backslashes n) := by
  induction s generalizing held with
  | nil =>
      have hbared : bared (backslashes held ++ []) = backslashes held :=
        (bared_backslashes_of_not_startsBare rfl held).trans (List.append_nil _)
      have hall := pieces_backslashes (0 + held) n []
      rw [List.append_nil, pieces] at hall
      refine ⟨?_, fun h => by cases h⟩
      rw [hbared, escapeTags, pieces_backslashes, hall, filterMap_char?_map, Nat.zero_add,
        backslashes, backslashes, backslashes, List.replicate_append_replicate]
  | cons c rest ih =>
      obtain ⟨houtside, hescaped⟩ := ih 0
      change _ = bared rest ++ backslashes n at houtside
      change _ → _ = bared rest ++ backslashes n at hescaped
      by_cases hbackslash : c = '\\'
      · obtain ⟨hmore, hmoreEscaped⟩ := ih (held + 1)
        rw [escapeTags, if_pos hbackslash, hbackslash, backslashes_append_cons]
        refine ⟨hmore, fun h => hmoreEscaped ?_⟩
        rw [upToBracket?_cons (by decide) (by decide), Option.isSome_map] at h
        exact h
      by_cases hopening : c = '['
      · subst hopening
        refine ⟨?_, fun h => by cases h⟩
        have hnext := tag?_escapeTags_eq (closing_notMem_backslashes n) rest
        cases htag : tag? rest with
        | none =>
            have hbare : startsBare ('[' :: rest) = true := by simp [startsBare, htag]
            rw [escapeTags, if_neg (by decide), if_neg (by simp [htag]), List.append_assoc,
              List.cons_append, pieces_opening_of_none held (hnext.trans htag),
              bared_backslashes_of_startsBare hbare, bared_cons_of_ne (by decide),
              List.filterMap_append, filterMap_char?_map]
            simp [Piece.char?, houtside]
        | some text =>
            have hbare : startsBare ('[' :: rest) = false := by simp [startsBare, htag]
            rw [escapeTags, if_neg (by decide), if_pos (by simp [htag]), List.append_assoc,
              List.cons_append, pieces_opening_of_some held (hnext.trans htag),
              bared_backslashes_of_not_startsBare hbare, bared_cons_of_ne (by decide),
              List.filterMap_append, List.filterMap_cons_none rfl, filterMap_char?_map]
            simp [List.filterMap_cons, Piece.char?, hescaped (upToBracket?_isSome_of_tag? htag)]
      · have hbare : startsBare (c :: rest) = false := by simp [startsBare, hopening]
        rw [escapeTags_cons_of_ne hbackslash hopening, List.append_assoc, List.cons_append,
          bared_backslashes_of_not_startsBare hbare, bared_cons_of_ne hbackslash]
        constructor
        · rw [pieces_backslashes, pieces_cons_of_ne hbackslash hopening, List.filterMap_append,
            filterMap_char?_map]
          simp [Piece.char?, houtside]
        · intro h
          rw [pieces_escaped_append (closing_notMem_backslashes held), pieces,
            List.filterMap_append, filterMap_char?_map]
          by_cases hclosing : c = ']'
          · rw [if_pos hclosing]
            simp [List.filterMap_cons, Piece.char?, houtside]
          · rw [upToBracket?_cons hopening hclosing, Option.isSome_map] at h
            rw [if_neg hclosing]
            simp [Piece.char?, hescaped h]

theorem chars_pieces_escape (s : List Char) :
    (pieces 0 .outside (escape s)).filterMap Piece.char? = shownAs s := by
  rw [escape_eq, (chars_pieces_escapeTags 0 s _).1, shownAs]
  split
  · rfl
  · exact List.append_nil _

theorem replaceEmoji_chars {emoji : Emoji.Table} {chunk more : List Char}
    (h : ¬ Emoji.HoldsCode emoji (chunk.reverse ++ more)) :
    replaceEmoji.chars emoji chunk = chunk.reverse.map .char := by
  have hfree : ¬ Emoji.HoldsCode emoji chunk.reverse := fun hholds =>
    h (hholds.of_infix (List.prefix_append _ _).isInfix)
  rw [replaceEmoji.chars, Emoji.replace_eq_drop hfree, List.drop_zero]

theorem replaceEmoji_eq {emoji : Emoji.Table} {found : List Piece} (hfound : AreChars found)
    {chunk : List Char}
    (h : ¬ Emoji.HoldsCode emoji (chunk.reverse ++ found.filterMap Piece.char?)) :
    replaceEmoji emoji chunk found =
      (chunk.reverse ++ found.filterMap Piece.char?).map .char := by
  induction found generalizing chunk with
  | nil =>
      rw [replaceEmoji, replaceEmoji_chars h, List.filterMap_nil, List.append_nil]
  | cons piece rest ih =>
      have hrest : AreChars rest := fun text hmem => hfound text (List.mem_cons_of_mem piece hmem)
      cases piece with
      | char c =>
          have hsame : chunk.reverse ++ (.char c :: rest).filterMap Piece.char? =
              (c :: chunk).reverse ++ rest.filterMap Piece.char? := by
            simp [Piece.char?]
          rw [hsame] at h ⊢
          exact ih hrest h
      | tag text => exact absurd List.mem_cons_self (hfound text)
      | cut =>
          rw [List.filterMap_cons_none rfl] at h ⊢
          have hbehind : ¬ Emoji.HoldsCode emoji (rest.filterMap Piece.char?) := fun hholds =>
            h (hholds.of_infix (List.suffix_append _ _).isInfix)
          have hnext := @ih hrest [] hbehind
          rw [replaceEmoji, replaceEmoji_chars h, hnext]
          simp

theorem addPieces_chars (r : Rendering) {s : List Char} (h : ∀ c ∈ s, movesCursor c = false) :
    r.addPieces (s.map .char) =
      .ok { r with shown := s.reverse ++ r.shown, size := r.size + s.length } := by
  induction s generalizing r with
  | nil => rfl
  | cons c rest ih =>
      rw [List.map_cons, Rendering.addPieces, if_neg (by simp [h c]),
        ih _ fun d hd => h d (List.mem_cons_of_mem c hd)]
      simp [Nat.add_assoc, Nat.add_comm 1]

theorem render_escape_eq {emoji : Emoji.Table} {s : List Char}
    (h : ∀ c ∈ shownAs s, movesCursor c = false) (hemoji : ¬ Emoji.HoldsCode emoji (shownAs s)) :
    render emoji (escape s) = .ok (Styled.plain (shownAs s)) := by
  have hchars := chars_pieces_escape s
  have hpieces : replaceEmoji emoji [] (pieces 0 .outside (escape s)) = (shownAs s).map .char := by
    rw [replaceEmoji_eq (areChars_pieces_escape s) (by rwa [hchars]), hchars]
    rfl
  rw [render, hpieces, addPieces_chars {} h]
  simp [bind, Except.bind, pure, Except.pure, Styled.plain]

/-! ### Texts that are shown as they are -/

theorem bared_sublist (s : List Char) : (bared s).Sublist s := by
  induction s with
  | nil => exact List.Sublist.refl []
  | cons c rest ih =>
      rw [bared]
      split
      · exact ih.cons c
      · exact ih.cons_cons c

theorem startsBare_iff (s : List Char) :
    startsBare s = true ↔ ∃ rest, s = '[' :: rest ∧ tag? rest = none := by
  cases s with
  | nil => simp [startsBare]
  | cons c rest =>
      simp only [startsBare, Bool.and_eq_true, decide_eq_true_eq, Option.isNone_iff_eq_none,
        List.cons.injEq]
      constructor
      · rintro ⟨hc, htag⟩
        exact ⟨rest, ⟨hc, rfl⟩, htag⟩
      · rintro ⟨_, ⟨hc, rfl⟩, htag⟩
        exact ⟨hc, htag⟩

theorem holdsBareBracket_cons_iff (c : Char) (rest : List Char) :
    HoldsBareBracket (c :: rest) ↔ (c = '\\' ∧ startsBare rest) ∨ HoldsBareBracket rest := by
  constructor
  · rintro ⟨before, behind, heq, htag⟩
    cases before with
    | nil =>
        obtain ⟨rfl, rfl⟩ := List.cons.inj heq
        exact Or.inl ⟨rfl, (startsBare_iff _).mpr ⟨behind, rfl, htag⟩⟩
    | cons d before =>
        obtain ⟨rfl, rfl⟩ := List.cons.inj heq
        exact Or.inr ⟨before, behind, rfl, htag⟩
  · rintro (⟨rfl, hbare⟩ | ⟨before, behind, rfl, htag⟩)
    · obtain ⟨behind, rfl, htag⟩ := (startsBare_iff rest).mp hbare
      exact ⟨[], behind, rfl, htag⟩
    · exact ⟨c :: before, behind, rfl, htag⟩

theorem bared_eq_self_iff (s : List Char) : bared s = s ↔ ¬ HoldsBareBracket s := by
  induction s with
  | nil =>
      have hnone : ¬ HoldsBareBracket [] := by
        rintro ⟨before, rest, heq, -⟩
        simp at heq
      exact iff_of_true rfl hnone
  | cons c rest ih =>
      rw [holdsBareBracket_cons_iff, not_or, ← ih, bared]
      split
      · rename_i hlost
        have hshort := (bared_sublist rest).length_le
        refine iff_of_false ?_ fun h => h.1 hlost
        intro heq
        have hlength := congrArg List.length heq
        rw [List.length_cons] at hlength
        omega
      · rename_i hkept
        simp [hkept]

instance (s : List Char) : Decidable (HoldsBareBracket s) :=
  decidable_of_iff (¬ bared s = s) (by rw [bared_eq_self_iff, Classical.not_not])

theorem exists_bared_append_backslash (s : List Char) :
    ∃ front, bared (s ++ ['\\']) = front ++ ['\\'] := by
  induction s with
  | nil => exact ⟨[], rfl⟩
  | cons c rest ih =>
      obtain ⟨front, hfront⟩ := ih
      rw [List.cons_append, bared]
      split
      · exact ⟨front, hfront⟩
      · exact ⟨c :: front, by rw [hfront]; rfl⟩

theorem exists_of_endsWithOneBackslash {s : List Char} (h : endsWithOneBackslash s = true) :
    ∃ front, s = front ++ ['\\'] := by
  unfold endsWithOneBackslash at h
  split at h
  · cases h
  · rename_i rest _ heq
    exact ⟨rest.reverse, by rw [← List.reverse_reverse s, heq, List.reverse_cons]⟩
  · cases h

theorem endsWithOneBackslash_append_two (front : List Char) :
    endsWithOneBackslash (front ++ ['\\', '\\']) = false := by
  have hreverse : (front ++ ['\\', '\\']).reverse = '\\' :: '\\' :: front.reverse := by simp
  unfold endsWithOneBackslash
  rw [hreverse]
  rfl

theorem shownAs_eq_self_iff (s : List Char) :
    shownAs s = s ↔ endsWithOneBackslash s = false ∧ ¬ HoldsBareBracket s := by
  rw [← bared_eq_self_iff]
  cases hends : endsWithOneBackslash s with
  | false =>
      rw [shownAs, hends]
      simp
  | true =>
      refine iff_of_false ?_ fun h => absurd h.1 (by decide)
      obtain ⟨front, rfl⟩ := exists_of_endsWithOneBackslash hends
      obtain ⟨shown, hshown⟩ := exists_bared_append_backslash front
      -- What is shown ends with two backslashes, and the text does not.
      intro heq
      rw [shownAs, hends, if_pos rfl, hshown, List.append_assoc] at heq
      have htwo := endsWithOneBackslash_append_two shown
      rw [show ['\\', '\\'] = ['\\'] ++ ['\\'] from rfl, heq, hends] at htwo
      cases htwo

theorem shownAs_append_eq_self_iff {c : Char} (hc : c ≠ '\\') (front : List Char) :
    shownAs (front ++ [c]) = front ++ [c] ↔ ¬ HoldsBareBracket (front ++ [c]) := by
  rw [shownAs_eq_self_iff, endsWithOneBackslash_append_cons hc]
  exact and_iff_right rfl

theorem mem_of_mem_shownAs {s : List Char} {c : Char} (h : c ∈ shownAs s) : c ∈ s := by
  rw [shownAs] at h
  split at h
  · rename_i hends
    rcases List.mem_append.mp h with hkept | hadded
    · exact (bared_sublist s).mem hkept
    · obtain ⟨front, rfl⟩ := exists_of_endsWithOneBackslash hends
      rw [List.mem_singleton.mp hadded]
      simp
  · exact (bared_sublist s).mem h

/-- A backslash at the end is shown twice, and one in front of a bracket is lost, but for tags. -/
example :
    shownAs "C:\\".toList = "C:\\\\".toList ∧ shownAs "a\\[1]".toList = "a[1]".toList ∧
      shownAs "a\\[b]\\c".toList = "a\\[b]\\c".toList := by
  decide

/-! ### Emoji codes -/

section

variable {emoji : Emoji.Table} (h : emoji.HasPlainNames)

include h

theorem holdsCode_bared (s front : List Char) :
    Emoji.HoldsCode emoji (front ++ bared s) ↔ Emoji.HoldsCode emoji (front ++ s) := by
  induction s generalizing front with
  | nil => rfl
  | cons c rest ih =>
      have hbackslash : Emoji.Parts emoji '\\' := h.parts (by decide)
      have hopening : Emoji.Parts emoji '[' := h.parts (by decide)
      have hkept := ih (front ++ [c])
      rw [List.append_assoc, List.append_assoc, List.singleton_append, List.singleton_append]
        at hkept
      rw [bared]
      split
      · rename_i hbare
        obtain ⟨rfl, hstarts⟩ := hbare
        obtain ⟨more, rfl, -⟩ := (startsBare_iff rest).mp hstarts
        rw [ih front, Emoji.holdsCode_append_cons hbackslash, Emoji.holdsCode_append_cons hopening,
          Emoji.holdsCode_cons hopening]
      · exact hkept

theorem holdsCode_shownAs (s : List Char) :
    Emoji.HoldsCode emoji (shownAs s) ↔ Emoji.HoldsCode emoji s := by
  have hbared := holdsCode_bared h s []
  rw [List.nil_append, List.nil_append] at hbared
  rw [shownAs]
  split
  · rw [Emoji.holdsCode_concat (h.parts (by decide)), hbared]
  · exact hbared

end

end LexicalPath.Markup
