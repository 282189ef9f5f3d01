import Mathlib.Data.List.TakeWhile
import LexicalPath.Display.Table
import LexicalPath.Proofs.Display.Emoji

namespace LexicalPath.Markup

open Display (Style)

/-- No piece is a tag. -/
def AreChars (found : List Piece) : Prop :=
  ∀ text, .tag text ∉ found

theorem areChars_nil : AreChars [] :=
  fun _ => List.not_mem_nil

theorem areChars_char_cons {c : Char} {found : List Piece} (h : AreChars found) :
    AreChars (.char c :: found) :=
  fun text => List.not_mem_cons_of_ne_of_not_mem (by simp) (h text)

theorem areChars_cut_cons {found : List Piece} (h : AreChars found) : AreChars (.cut :: found) :=
  fun text => List.not_mem_cons_of_ne_of_not_mem (by simp) (h text)

theorem areChars_map (s : List Char) : AreChars (s.map .char) := by
  intro text h
  obtain ⟨c, -, hc⟩ := List.mem_map.mp h
  cases hc

theorem AreChars.append {found more : List Piece} (h : AreChars found) (hmore : AreChars more) :
    AreChars (found ++ more) := by
  intro text
  rw [List.mem_append, not_or]
  exact ⟨h text, hmore text⟩

/-! ### Where tags start -/

theorem upToBracket?_of_not_mem {s : List Char} (h : ']' ∉ s) : upToBracket? s = none := by
  induction s with
  | nil => rfl
  | cons c rest ih =>
      obtain ⟨hc, hrest⟩ := not_or.mp (mt List.mem_cons.mpr h)
      rw [upToBracket?, if_neg (Ne.symm hc), ih hrest]
      split <;> rfl

theorem upToBracket?_backslashes (n : Nat) {s : List Char} (h : upToBracket? s = none) :
    upToBracket? (backslashes n ++ s) = none := by
  unfold backslashes
  induction n with
  | zero => exact h
  | succ n ih =>
      rw [List.replicate_succ, List.cons_append, upToBracket?, if_neg (by decide),
        if_neg (by decide), ih]
      rfl

theorem upToBracket?_cons {c : Char} (hopening : c ≠ '[') (hclosing : c ≠ ']') (rest : List Char) :
    upToBracket? (c :: rest) = (upToBracket? rest).map (c :: ·) := by
  rw [upToBracket?, if_neg hclosing, if_neg hopening]

theorem tag?_of_not_mem {s : List Char} (h : ']' ∉ s) : tag? s = none := by
  cases s with
  | nil => rfl
  | cons c rest =>
      rw [tag?, upToBracket?_of_not_mem fun hrest => h (List.mem_cons_of_mem c hrest)]
      split <;> rfl

theorem escapeTags_cons_of_ne {c : Char} (hbackslash : c ≠ '\\') (hopening : c ≠ '[') (held : Nat)
    (rest : List Char) :
    escapeTags held (c :: rest) = backslashes held ++ c :: escapeTags 0 rest := by
  rw [escapeTags, if_neg hbackslash, if_neg fun h => hopening h.1]

theorem exists_escapeTags_opening (held : Nat) (rest : List Char) :
    ∃ n, escapeTags held ('[' :: rest) = backslashes n ++ '[' :: escapeTags 0 rest ∧
      (tag? rest = none ∨ n % 2 = 1) := by
  rw [escapeTags, if_neg (by decide)]
  split
  · exact ⟨2 * held + 1, rfl, .inr (by omega)⟩
  · rename_i h
    refine ⟨held, rfl, .inl ?_⟩
    simpa using h

theorem escapeTags_succ (held : Nat) (s : List Char) :
    ∃ rest, escapeTags (held + 1) s = '\\' :: rest := by
  induction s generalizing held with
  | nil => exact ⟨_, rfl⟩
  | cons c rest ih =>
      by_cases hbackslash : c = '\\'
      · rw [escapeTags, if_pos hbackslash]
        exact ih (held + 1)
      · rw [escapeTags, if_neg hbackslash]
        split <;> exact ⟨_, rfl⟩

section

variable {t : List Char} (ht : ']' ∉ t)

include ht

theorem upToBracket?_escapeTags {s : List Char} (h : upToBracket? s = none) (held : Nat) :
    upToBracket? (escapeTags held s ++ t) = none := by
  induction s generalizing held with
  | nil => exact upToBracket?_backslashes held (upToBracket?_of_not_mem ht)
  | cons c rest ih =>
      by_cases hbackslash : c = '\\'
      · rw [hbackslash, upToBracket?_cons (by decide) (by decide), Option.map_eq_none_iff] at h
        rw [escapeTags, if_pos hbackslash]
        exact ih h (held + 1)
      by_cases hopening : c = '['
      · subst hopening
        obtain ⟨n, hn, -⟩ := exists_escapeTags_opening held rest
        rw [hn, List.append_assoc]
        exact upToBracket?_backslashes n rfl
      · have hclosing : c ≠ ']' := by
          rintro rfl
          cases h
        rw [upToBracket?_cons hopening hclosing, Option.map_eq_none_iff] at h
        rw [escapeTags_cons_of_ne hbackslash hopening, List.append_assoc, List.cons_append]
        apply upToBracket?_backslashes
        rw [upToBracket?_cons hopening hclosing, ih h 0]
        rfl

theorem tag?_escapeTags {s : List Char} (h : tag? s = none) :
    tag? (escapeTags 0 s ++ t) = none := by
  cases s with
  | nil => exact tag?_of_not_mem ht
  | cons c rest =>
      by_cases hbackslash : c = '\\'
      · obtain ⟨more, hmore⟩ := escapeTags_succ 0 rest
        rw [escapeTags, if_pos hbackslash, hmore]
        rfl
      by_cases hopening : c = '['
      · subst hopening
        obtain ⟨n, hn, -⟩ := exists_escapeTags_opening 0 rest
        rw [hn]
        cases n <;> rfl
      · rw [escapeTags_cons_of_ne hbackslash hopening]
        change tag? (c :: (escapeTags 0 rest ++ t)) = none
        rw [tag?] at h ⊢
        split at h
        · rw [Option.map_eq_none_iff] at h
          rw [upToBracket?_escapeTags ht h 0]
          split <;> rfl
        · rename_i hstart
          rw [if_neg hstart]

end

/-! ### The pieces of escaped texts -/

theorem pieces_backslashes (held n : Nat) (s : List Char) :
    pieces held .outside (backslashes n ++ s) = pieces (held + n) .outside s := by
  unfold backslashes
  induction n generalizing held with
  | zero => rfl
  | succ n ih =>
      rw [List.replicate_succ, List.cons_append, pieces, if_pos rfl, ih]
      congr 1
      omega

theorem pieces_cons_of_ne {c : Char} (hbackslash : c ≠ '\\') (hopening : c ≠ '[') (held : Nat)
    (rest : List Char) :
    pieces held .outside (c :: rest) =
      (backslashes held).map .char ++ .char c :: pieces 0 .outside rest := by
  rw [pieces, if_neg hbackslash, if_neg hopening]

theorem pieces_escaped_append {s : List Char} (h : ']' ∉ s) (rest : List Char) :
    pieces 0 .escaped (s ++ rest) = s.map .char ++ pieces 0 .escaped rest := by
  induction s with
  | nil => rfl
  | cons c more ih =>
      obtain ⟨hc, hmore⟩ := not_or.mp (mt List.mem_cons.mpr h)
      rw [List.cons_append, pieces, if_neg (Ne.symm hc), ih hmore]
      rfl

theorem areChars_pieces_opening {held : Nat} {rest : List Char}
    (h : tag? rest = none ∨ held % 2 = 1) (hrest : AreChars (pieces 0 .outside rest))
    (hescaped : AreChars (pieces 0 .escaped rest)) :
    AreChars (pieces held .outside ('[' :: rest)) := by
  rw [pieces, if_neg (by decide), if_pos rfl]
  split
  · rename_i text htag
    rcases h with h | h
    · rw [h] at htag
      cases htag
    · rw [if_neg (by omega)]
      exact areChars_cut_cons
        ((areChars_map _).append (areChars_cut_cons (areChars_char_cons hescaped)))
  · exact (areChars_map _).append (areChars_char_cons hrest)

theorem areChars_escaped_of_not_mem {t : List Char} (ht : ']' ∉ t) :
    AreChars (pieces 0 .escaped t) := by
  rw [← List.append_nil t, pieces_escaped_append ht]
  exact (areChars_map t).append areChars_nil

theorem areChars_of_not_mem {t : List Char} (ht : ']' ∉ t) (held : Nat) :
    AreChars (pieces held .outside t) := by
  induction t generalizing held with
  | nil => exact areChars_map _
  | cons c rest ih =>
      have hrest : ']' ∉ rest := fun h => ht (List.mem_cons_of_mem c h)
      by_cases hbackslash : c = '\\'
      · rw [pieces, if_pos hbackslash]
        exact ih hrest (held + 1)
      by_cases hopening : c = '['
      · subst hopening
        exact areChars_pieces_opening (.inl (tag?_of_not_mem hrest)) (ih hrest 0)
          (areChars_escaped_of_not_mem hrest)
      · rw [pieces_cons_of_ne hbackslash hopening]
        exact (areChars_map _).append (areChars_char_cons (ih hrest 0))

theorem closing_notMem_backslashes (n : Nat) : ']' ∉ backslashes n :=
  fun h => absurd (List.eq_of_mem_replicate h) (by decide)

/-- Behind an escaped opening bracket the text is looked at in another way up to the closing
bracket, so that both ways are followed. -/
theorem areChars_escapeTags {t : List Char} (ht : ']' ∉ t) (s : List Char) (held : Nat) :
    AreChars (pieces 0 .outside (escapeTags held s ++ t)) ∧
      AreChars (pieces 0 .escaped (escapeTags held s ++ t)) := by
  induction s generalizing held with
  | nil =>
      rw [escapeTags, pieces_backslashes, pieces_escaped_append (closing_notMem_backslashes held)]
      exact ⟨areChars_of_not_mem ht _, (areChars_map _).append (areChars_escaped_of_not_mem ht)⟩
  | cons c rest ih =>
      obtain ⟨houtside, hescaped⟩ := ih 0
      by_cases hbackslash : c = '\\'
      · rw [escapeTags, if_pos hbackslash]
        exact ih (held + 1)
      by_cases hopening : c = '['
      · subst hopening
        obtain ⟨n, hn, h⟩ := exists_escapeTags_opening held rest
        rw [hn, List.append_assoc, List.cons_append]
        constructor
        · rw [pieces_backslashes]
          exact areChars_pieces_opening (h.imp (tag?_escapeTags ht) fun hodd => by omega) houtside
            hescaped
        · rw [pieces_escaped_append (closing_notMem_backslashes n), pieces,
            if_neg (by decide)]
          exact (areChars_map _).append (areChars_char_cons hescaped)
      · rw [escapeTags_cons_of_ne hbackslash hopening, List.append_assoc, List.cons_append]
        constructor
        · rw [pieces_backslashes, pieces_cons_of_ne hbackslash hopening]
          exact (areChars_map _).append (areChars_char_cons houtside)
        · rw [pieces_escaped_append (closing_notMem_backslashes held), pieces]
          refine (areChars_map _).append (areChars_char_cons ?_)
          split
          · exact areChars_cut_cons houtside
          · exact hescaped

theorem areChars_escape {t : List Char} (ht : ']' ∉ t) (s : List Char) :
    AreChars (pieces 0 .outside (escape s ++ t)) := by
  rw [escape]
  split
  · rw [List.append_assoc]
    exact (areChars_escapeTags (by simpa using ht) s 0).1
  · exact (areChars_escapeTags ht s 0).1

theorem areChars_pieces_escape (s : List Char) : AreChars (pieces 0 .outside (escape s)) := by
  have h := areChars_escape (t := []) List.not_mem_nil s
  rwa [List.append_nil] at h

/-! ### Showing -/

theorem exists_replaceEmoji_tag (emoji : Emoji.Table) {found : List Piece} (h : AreChars found)
    (chunk text : List Char) (behind : List Piece) :
    ∃ shown : List Char, replaceEmoji emoji chunk (found ++ .tag text :: behind) =
      shown.map .char ++ .tag text :: replaceEmoji emoji [] behind := by
  induction found generalizing chunk with
  | nil => exact ⟨_, rfl⟩
  | cons piece rest ih =>
      have hrest : AreChars rest := fun text hmem => h text (List.mem_cons_of_mem piece hmem)
      cases piece with
      | char c => exact ih hrest (c :: chunk)
      | tag other => exact absurd List.mem_cons_self (h other)
      | cut =>
          obtain ⟨shown, hshown⟩ := ih hrest []
          refine ⟨emoji.replace 0 chunk.reverse ++ shown, ?_⟩
          rw [List.cons_append, replaceEmoji, hshown, List.map_append, List.append_assoc]
          rfl

theorem exists_replaceEmoji (emoji : Emoji.Table) {found : List Piece} (h : AreChars found)
    (chunk : List Char) :
    ∃ shown : List Char, replaceEmoji emoji chunk found = shown.map .char := by
  induction found generalizing chunk with
  | nil => exact ⟨_, rfl⟩
  | cons piece rest ih =>
      have hrest : AreChars rest := fun text hmem => h text (List.mem_cons_of_mem piece hmem)
      cases piece with
      | char c => exact ih hrest (c :: chunk)
      | tag other => exact absurd List.mem_cons_self (h other)
      | cut =>
          obtain ⟨shown, hshown⟩ := ih hrest []
          refine ⟨emoji.replace 0 chunk.reverse ++ shown, ?_⟩
          rw [replaceEmoji, hshown, List.map_append]
          rfl

theorem addPieces_append (r : Rendering) (found more : List Piece) :
    r.addPieces (found ++ more) = (r.addPieces found).bind fun r => r.addPieces more := by
  induction found generalizing r with
  | nil => rfl
  | cons piece rest ih =>
      cases piece with
      | char c =>
          rw [List.cons_append, Rendering.addPieces, Rendering.addPieces]
          split <;> exact ih _
      | tag text =>
          rw [List.cons_append, Rendering.addPieces, Rendering.addPieces]
          cases r.addTag text with
          | error e => rfl
          | ok next => exact ih next
      | cut => exact ih r

theorem exists_addPieces_chars (s : List Char) (r : Rendering) :
    ∃ next, r.addPieces (s.map .char) = .ok next ∧ next.opened = r.opened := by
  induction s generalizing r with
  | nil => exact ⟨r, rfl, rfl⟩
  | cons c rest ih =>
      rw [List.map_cons, Rendering.addPieces]
      split
      · exact ih r
      · exact ih _

theorem exists_render_of_addPieces {emoji : Emoji.Table} {s : List Char} {r : Rendering}
    (hr : Rendering.addPieces {} (replaceEmoji emoji [] (pieces 0 .outside s)) = .ok r)
    (hopened : r.opened = []) : ∃ shown, render emoji s = .ok shown := by
  rw [render, hr]
  simp only [bind, Except.bind, hopened]
  exact ⟨_, rfl⟩

theorem render_escape (emoji : Emoji.Table) (s : List Char) :
    ∃ shown, render emoji (escape s) = .ok shown := by
  obtain ⟨shown, hshown⟩ := exists_replaceEmoji emoji (areChars_pieces_escape s) []
  obtain ⟨next, hnext, hopened⟩ := exists_addPieces_chars shown {}
  rw [← hshown] at hnext
  exact exists_render_of_addPieces hnext hopened

theorem replaceEmoji_eq_of_not_mem (emoji other : Emoji.Table) {found : List Piece}
    (hfound : .char ':' ∉ found) {chunk : List Char} (hchunk : ':' ∉ chunk) :
    replaceEmoji emoji chunk found = replaceEmoji other chunk found := by
  have hchars {chunk : List Char} (hchunk : ':' ∉ chunk) :
      replaceEmoji.chars emoji chunk = replaceEmoji.chars other chunk := by
    have hfree (emoji : Emoji.Table) : ¬ Emoji.HoldsCode emoji chunk.reverse :=
      Emoji.not_holdsCode_of_not_mem (by simpa using hchunk)
    rw [replaceEmoji.chars, replaceEmoji.chars, Emoji.replace_eq_drop (hfree emoji),
      Emoji.replace_eq_drop (hfree other)]
  induction found generalizing chunk with
  | nil => exact hchars hchunk
  | cons piece rest ih =>
      obtain ⟨hpiece, hrest⟩ := List.ne_and_not_mem_of_not_mem_cons hfound
      cases piece with
      | char c =>
          have hne : ':' ≠ c := fun h => hpiece (congrArg Piece.char h)
          exact ih hrest (List.not_mem_cons_of_ne_of_not_mem hne hchunk)
      | tag text => rw [replaceEmoji, replaceEmoji, hchars hchunk, ih hrest List.not_mem_nil]
      | cut => rw [replaceEmoji, replaceEmoji, hchars hchunk, ih hrest List.not_mem_nil]

theorem render_eq_of_not_mem (emoji other : Emoji.Table) {s : List Char}
    (h : .char ':' ∉ pieces 0 .outside s) : render emoji s = render other s := by
  rw [render, render, replaceEmoji_eq_of_not_mem emoji other h List.not_mem_nil]

/-! ### Words in a style -/

/-- Words between the opening and the closing tag of a style. -/
def styled (style words : List Char) : List Char :=
  '[' :: (style ++ ']' :: (words ++ '[' :: '/' :: (style ++ [']'])))

/-- The text stands for itself, whatever stands behind it. -/
def IsPlain (s : List Char) : Prop :=
  ∀ c ∈ s, c ≠ '[' ∧ c ≠ '\\'

instance (s : List Char) : Decidable (IsPlain s) :=
  List.decidableBAll (fun c => c ≠ '[' ∧ c ≠ '\\') s

/-- The text is the definition of a style and can be written in a tag. -/
structure IsStyle (style : List Char) : Prop where
  starts : style.head?.any startsTag = true
  letters : ∀ c ∈ style, c ≠ '[' ∧ c ≠ ']' ∧ c ≠ '=' ∧ c ≠ '/' ∧ c ≠ '@'
  trimmed : Text.trim Text.isBlank style = style ∧ style.all Text.isBlank = false
  normalForm : (Style.normalForm style).toOption = some (String.ofList style)
  defined : (Style.ofText style).toOption.isSome = true

theorem upToBracket?_of_letters {s : List Char} (h : ∀ c ∈ s, c ≠ '[' ∧ c ≠ ']')
    (rest : List Char) : upToBracket? (s ++ ']' :: rest) = some s := by
  induction s with
  | nil => rfl
  | cons c more ih =>
      obtain ⟨hopening, hclosing⟩ := h c (by simp)
      rw [List.cons_append, upToBracket?_cons hopening hclosing,
        ih fun d hd => h d (by simp [hd])]
      rfl

theorem pieces_skip {s : List Char} (h : ']' ∉ s) (rest : List Char) :
    pieces 0 .tag (s ++ ']' :: rest) = pieces 0 .outside rest := by
  induction s with
  | nil => rfl
  | cons c more ih =>
      obtain ⟨hc, hmore⟩ := not_or.mp (mt List.mem_cons.mpr h)
      rw [List.cons_append, pieces, if_neg (Ne.symm hc)]
      exact ih hmore

theorem pieces_tag {text : List Char} (hstarts : text.head?.any startsTag = true)
    (hletters : ∀ c ∈ text, c ≠ '[' ∧ c ≠ ']') (rest : List Char) :
    pieces 0 .outside ('[' :: (text ++ ']' :: rest)) =
      .cut :: .tag text :: pieces 0 .outside rest := by
  have htag : tag? (text ++ ']' :: rest) = some text := by
    cases text with
    | nil => cases hstarts
    | cons c more =>
        rw [List.cons_append, tag?, if_pos (by simpa using hstarts),
          upToBracket?_of_letters fun d hd => hletters d (by simp [hd])]
        rfl
  have hskip := pieces_skip (fun h => (hletters ']' h).2 rfl) rest
  rw [pieces, if_neg (by decide), if_pos rfl, htag]
  simp [backslashes, hskip]

theorem pieces_plain {s : List Char} (h : IsPlain s) (rest : List Char) :
    pieces 0 .outside (s ++ rest) = s.map .char ++ pieces 0 .outside rest := by
  induction s with
  | nil => rfl
  | cons c more ih =>
      obtain ⟨hopening, hbackslash⟩ := h c (by simp)
      rw [List.cons_append, pieces_cons_of_ne hbackslash hopening,
        ih fun d hd => h d (by simp [hd])]
      rfl

theorem areChars_plain_append {s : List Char} (h : IsPlain s) {rest : List Char}
    (hrest : AreChars (pieces 0 .outside rest)) : AreChars (pieces 0 .outside (s ++ rest)) := by
  rw [pieces_plain h]
  exact (areChars_map s).append hrest

theorem pieces_styled {style : List Char} (hstyle : IsStyle style) {words : List Char}
    (hwords : IsPlain words) (rest : List Char) :
    pieces 0 .outside (styled style words ++ rest) =
      .cut :: .tag style ::
        ((words.map .char ++ [.cut]) ++ .tag ('/' :: style) :: pieces 0 .outside rest) := by
  have hletters : ∀ c ∈ style, c ≠ '[' ∧ c ≠ ']' :=
    fun c hc => ⟨(hstyle.letters c hc).1, (hstyle.letters c hc).2.1⟩
  have hclosing : pieces 0 .outside ('[' :: ('/' :: style ++ ']' :: rest)) =
      .cut :: .tag ('/' :: style) :: pieces 0 .outside rest :=
    pieces_tag rfl (List.forall_mem_cons.mpr ⟨by decide, hletters⟩) rest
  have htext : styled style words ++ rest =
      '[' :: (style ++ ']' :: (words ++ '[' :: ('/' :: style ++ ']' :: rest))) := by
    simp [styled]
  rw [htext, pieces_tag hstyle.starts hletters, pieces_plain hwords, hclosing]
  simp

theorem eq_ok_of_toOption {ε α : Type} {x : Except ε α} {a : α} (h : x.toOption = some a) :
    x = .ok a := by
  cases x with
  | error e => cases h
  | ok b => rw [Option.some.inj h]

theorem IsStyle.normalForm_eq {style : List Char} (h : IsStyle style) :
    Style.normalForm style = .ok (String.ofList style) :=
  eq_ok_of_toOption h.normalForm

theorem addTag_opening {style : List Char} (hstyle : IsStyle style) (r : Rendering) :
    r.addTag style = .ok { r with opened := ⟨r.size, String.ofList style, none⟩ :: r.opened } := by
  have hname : style.takeWhile (· != '=') = style := by
    rw [List.takeWhile_eq_self_iff]
    intro c hc
    simpa using (hstyle.letters c hc).2.2.1
  have hequals : style.contains '=' = false := by
    simpa using fun h => (hstyle.letters '=' h).2.2.1 rfl
  rw [Rendering.addTag, hname]
  split
  · rename_i name
    exact absurd rfl (hstyle.letters '/' (by simp)).2.2.2.1
  · simp only [hstyle.normalForm_eq, hequals]
    rfl

theorem addTag_closing {style : List Char} (hstyle : IsStyle style) {r : Rendering} {first : Nat}
    (hopened : r.opened = [⟨first, String.ofList style, none⟩]) :
    ∃ next, r.addTag ('/' :: style) = .ok next ∧ next.opened = [] := by
  have hname : ('/' :: style).takeWhile (· != '=') = '/' :: style := by
    rw [List.takeWhile_eq_self_iff]
    intro c hc
    rcases List.mem_cons.mp hc with rfl | hc
    · rfl
    · simpa using (hstyle.letters c hc).2.2.1
  have hclose (last : Nat) : ∃ span, OpenTag.close ⟨first, String.ofList style, none⟩ last =
      .ok span := by
    have hhead : style.head? ≠ some '@' := by
      intro h
      exact absurd rfl (hstyle.letters '@' (List.mem_of_mem_head? h)).2.2.2.2
    obtain ⟨given, hgiven⟩ := Option.isSome_iff_exists.mp hstyle.defined
    refine ⟨⟨first, last⟩, ?_⟩
    simp only [OpenTag.close, OpenTag.definition, String.toList_ofList, if_neg hhead, Option.elim,
      List.append_nil, eq_ok_of_toOption hgiven]
  obtain ⟨span, hspan⟩ := hclose r.size
  refine ⟨{ r with spans := span :: r.spans, opened := [] }, ?_, rfl⟩
  rw [Rendering.addTag, hname]
  simp [hstyle.trimmed, hstyle.normalForm_eq, Except.mapError, Rendering.closeTag, hopened, hspan,
    Except.map]

theorem exists_addPieces_styled {style : List Char} (hstyle : IsStyle style) (words : List Char)
    (behind : List Char) :
    ∃ r, Rendering.addPieces {}
        (.tag style :: (words.map .char ++ .tag ('/' :: style) :: behind.map .char)) = .ok r ∧
      r.opened = [] := by
  obtain ⟨r, hr, hopened⟩ := exists_addPieces_chars words
    { opened := [⟨0, String.ofList style, none⟩] }
  obtain ⟨next, hnext, hempty⟩ := addTag_closing hstyle hopened
  obtain ⟨last, hlast, hkept⟩ := exists_addPieces_chars behind next
  refine ⟨last, ?_, hkept.trans hempty⟩
  rw [Rendering.addPieces, addTag_opening hstyle]
  change Rendering.addPieces { opened := [⟨0, String.ofList style, none⟩] } _ = _
  rw [addPieces_append, hr]
  change Rendering.addPieces r (.tag ('/' :: style) :: _) = _
  rw [Rendering.addPieces, hnext]
  exact hlast

theorem render_styled (emoji : Emoji.Table) {style : List Char} (hstyle : IsStyle style)
    {words : List Char} (hwords : IsPlain words) {behind : List Char}
    (hbehind : AreChars (pieces 0 .outside behind)) :
    ∃ shown, render emoji (styled style words ++ behind) = .ok shown := by
  have hwordsChars : AreChars (words.map .char ++ [.cut]) :=
    (areChars_map words).append (areChars_cut_cons areChars_nil)
  obtain ⟨within, hwithin⟩ := exists_replaceEmoji_tag emoji hwordsChars []
    ('/' :: style) (pieces 0 .outside behind)
  obtain ⟨after, hafter⟩ := exists_replaceEmoji emoji hbehind []
  obtain ⟨r, hr, hopened⟩ := exists_addPieces_styled hstyle within after
  have hpieces : replaceEmoji emoji [] (pieces 0 .outside (styled style words ++ behind)) =
      .tag style :: (within.map .char ++ .tag ('/' :: style) :: after.map .char) := by
    rw [pieces_styled hstyle hwords, ← hafter, ← hwithin]
    rfl
  rw [← hpieces] at hr
  exact exists_render_of_addPieces hr hopened

end LexicalPath.Markup

namespace LexicalPath.Display

theorem readCells_of_render {emoji : Emoji.Table} {rows : List (List (List Char))}
    {cells : List (List Styled)}
    (h : rows.map (·.map (Markup.render emoji)) = cells.map (·.map .ok)) :
    readCells emoji rows = .ok cells := by
  have hfree : ∀ row ∈ cells.map (·.map .ok), ∀ cell ∈ row, readCells.fault? cell = none := by
    intro row hrow cell hcell
    obtain ⟨cells, -, rfl⟩ := List.mem_map.mp hrow
    obtain ⟨shown, -, rfl⟩ := List.mem_map.mp hcell
    rfl
  rw [readCells]
  simp only [h]
  split
  · rename_i e hfault
    obtain ⟨cell, hcell, herror⟩ := List.exists_of_findSome?_eq_some hfault
    obtain ⟨j, -, hj⟩ := List.mem_flatMap.mp hcell
    obtain ⟨row, hrow, hmem⟩ := List.mem_filterMap.mp hj
    rw [hfree row hrow cell (List.mem_of_getElem? hmem)] at herror
    cases herror
  · simp [List.filterMap_map, Function.comp_def, Except.toOption]

theorem exists_plainTable {console : Console} {rows : List (List (List Char))}
    (h : ∀ row ∈ rows, ∀ cell ∈ row, ∃ shown, Markup.render console.emoji cell = .ok shown) :
    ∃ s, plainTable console rows = .ok s := by
  let shownOf (cell : List Char) : Styled :=
    (Markup.render console.emoji cell).toOption.getD (Styled.plain [])
  have hshown : ∀ row ∈ rows, ∀ cell ∈ row,
      Markup.render console.emoji cell = .ok (shownOf cell) := by
    intro row hrow cell hcell
    obtain ⟨shown, hshown⟩ := h row hrow cell hcell
    simp only [shownOf, hshown]
    rfl
  have hread : readCells console.emoji rows = .ok (rows.map (·.map shownOf)) := by
    apply readCells_of_render
    rw [List.map_map]
    refine List.map_congr_left fun row hrow => ?_
    rw [Function.comp_apply, List.map_map]
    exact List.map_congr_left (hshown row hrow)
  rw [plainTable, hread]
  exact ⟨_, rfl⟩

end LexicalPath.Display
