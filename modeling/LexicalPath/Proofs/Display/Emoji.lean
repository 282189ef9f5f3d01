import Mathlib.Data.List.Infix
import LexicalPath.Display.Emoji

namespace LexicalPath.Emoji

/-- The code of an emoji stands somewhere in the text, between its colons. -/
def HoldsCode (emoji : Table) (s : List Char) : Prop :=
  ∃ code, ':' :: (code ++ [':']) <:+: s ∧ ':' ∉ code ∧ (∀ c ∈ code, Text.isBlank c = false) ∧
    (emoji.shown? code).isSome = true

variable {emoji : Table} {s t : List Char}

theorem HoldsCode.of_infix (h : HoldsCode emoji s) (hst : s <:+: t) : HoldsCode emoji t := by
  obtain ⟨code, hcode, hrest⟩ := h
  exact ⟨code, hcode.trans hst, hrest⟩

theorem not_holdsCode_of_not_mem (h : ':' ∉ s) : ¬ HoldsCode emoji s := by
  rintro ⟨code, hcode, -⟩
  exact h (hcode.subset (List.mem_cons_self ..))

theorem HoldsCode.two_le_count (h : HoldsCode emoji s) : 2 ≤ s.count ':' := by
  obtain ⟨code, hcode, -⟩ := h
  have hle := hcode.sublist.count_le ':'
  rw [List.count_cons_self, List.count_append, List.count_singleton_self] at hle
  omega

theorem exists_of_upToColon? {code : List Char} (h : upToColon? s = some code) :
    ∃ behind, s = code ++ ':' :: behind ∧ ':' ∉ code ∧ ∀ c ∈ code, Text.isBlank c = false := by
  induction s generalizing code with
  | nil => cases h
  | cons c rest ih =>
      rw [upToColon?] at h
      split at h
      · rename_i hcolon
        obtain rfl := Option.some.inj h
        exact ⟨rest, by rw [hcolon]; rfl, List.not_mem_nil, by simp⟩
      split at h
      · cases h
      rename_i hcolon hblank
      obtain ⟨more, hmore, rfl⟩ := Option.map_eq_some_iff.mp h
      obtain ⟨behind, rfl, hfree, hblanks⟩ := ih hmore
      refine ⟨behind, rfl, ?_, ?_⟩
      · rw [List.mem_cons, not_or]
        exact ⟨Ne.symm hcolon, hfree⟩
      · exact List.forall_mem_cons.mpr ⟨by simpa using hblank, hblanks⟩

theorem replace_eq_drop (h : ¬ HoldsCode emoji s) (n : Nat) : emoji.replace n s = s.drop n := by
  induction s generalizing n with
  | nil => cases n <;> rfl
  | cons c rest ih =>
      have hrest : ¬ HoldsCode emoji rest := fun hrest =>
        h (hrest.of_infix (List.suffix_cons c rest).isInfix)
      cases n with
      | succ n => exact ih hrest n
      | zero =>
          rw [Table.replace]
          split
          · rename_i code hcode
            split at hcode
            · rename_i hcolon
              obtain ⟨behind, rfl, hfree, hblanks⟩ := exists_of_upToColon? hcode
              subst hcolon
              have hnone : emoji.shown? code = none := by
                rw [← Option.not_isSome_iff_eq_none]
                intro hsome
                exact h ⟨code, ⟨[], behind, by simp⟩, hfree, hblanks, hsome⟩
              rw [hnone, ih hrest]
              simp
            · cases hcode
          · rw [ih hrest]
            rfl

/-! ### Characters over which no code reaches -/

/-- The code of no emoji holds the character. -/
def Parts (emoji : Table) (c : Char) : Prop :=
  c ≠ ':' ∧ ∀ code, (∀ d ∈ code, Text.isBlank d = false) → (emoji.shown? code).isSome = true →
    c ∉ code

variable {c : Char}

theorem Parts.not_mem (h : Parts emoji c) {code : List Char}
    (hblanks : ∀ d ∈ code, Text.isBlank d = false) (hcode : (emoji.shown? code).isSome = true) :
    c ∉ ':' :: (code ++ [':']) := by
  simp [h.1, h.2 code hblanks hcode]

theorem holdsCode_append_cons (hc : Parts emoji c) :
    HoldsCode emoji (s ++ c :: t) ↔ HoldsCode emoji s ∨ HoldsCode emoji t := by
  constructor
  · rintro ⟨code, hcode, hfree, hblanks, hsome⟩
    have hnot := hc.not_mem hblanks hsome
    rcases List.infix_append_iff.mp hcode with hs | hct | ⟨front, behind, hsplit, hfront, hbehind⟩
    · exact Or.inl ⟨code, hs, hfree, hblanks, hsome⟩
    · rcases List.infix_cons_iff.mp hct with hprefix | ht
      · obtain ⟨rfl, -⟩ := List.cons_prefix_cons.mp hprefix
        exact absurd rfl hc.1
      · exact Or.inr ⟨code, ht, hfree, hblanks, hsome⟩
    · cases behind with
      | nil =>
          rw [List.append_nil] at hsplit
          exact Or.inl ⟨code, hsplit ▸ hfront.isInfix, hfree, hblanks, hsome⟩
      | cons d more =>
          obtain ⟨rfl, -⟩ := List.cons_prefix_cons.mp hbehind
          exact absurd (by rw [hsplit]; simp) hnot
  · rintro (hs | ht)
    · exact hs.of_infix (List.prefix_append s (c :: t)).isInfix
    · exact ht.of_infix ((List.suffix_cons c t).trans (List.suffix_append s (c :: t))).isInfix

theorem holdsCode_cons (hc : Parts emoji c) : HoldsCode emoji (c :: t) ↔ HoldsCode emoji t := by
  have h := holdsCode_append_cons (s := []) (t := t) hc
  rwa [or_iff_right (not_holdsCode_of_not_mem List.not_mem_nil)] at h

theorem holdsCode_concat (hc : Parts emoji c) : HoldsCode emoji (s ++ [c]) ↔ HoldsCode emoji s := by
  have h := holdsCode_append_cons (s := s) (t := []) hc
  rwa [or_iff_left (not_holdsCode_of_not_mem List.not_mem_nil)] at h

theorem parts_space (emoji : Table) : Parts emoji ' ' := by
  refine ⟨by decide, fun code hblanks _ hmem => ?_⟩
  exact absurd (hblanks ' ' hmem) (by decide)

/-- Characters that separate names, or stand around texts in quotes. -/
def breaks : List Char :=
  ['/', '\\', '[', ']', '\'', '"']

/-- The names of emoji hold no slashes, backslashes, square brackets and straight quotes. -/
def Table.HasPlainNames (emoji : Table) : Prop :=
  ∀ name, (emoji name).isSome = true → ∀ c ∈ breaks, c ∉ name

theorem mem_name_of_mem {code : List Char} (h : c ∈ code) :
    c ∈ (nameAndVariant code).1 ∨ c ∈ "-emoji".toList ∨ c ∈ "-text".toList := by
  have htake {n : Nat} {variant : List Char} (hn : variant.length = n)
      (hsuffix : variant.isSuffixOf code = true) :
      c ∈ code.take (code.length - n) ∨ c ∈ variant := by
    obtain ⟨front, rfl⟩ := List.isSuffixOf_iff_suffix.mp hsuffix
    rw [List.length_append, hn, Nat.add_sub_cancel, List.take_left]
    exact List.mem_append.mp h
  rw [nameAndVariant]
  split
  · rename_i hsuffix
    exact (htake rfl hsuffix).imp_right Or.inl
  split
  · rename_i hsuffix
    exact (htake rfl hsuffix).imp_right Or.inr
  · exact Or.inl h

theorem Table.HasPlainNames.parts (h : emoji.HasPlainNames) (hc : c ∈ breaks) :
    Parts emoji c := by
  have hother : ∀ c ∈ breaks, c ≠ ':' ∧ c ∉ "-emoji".toList ∧ c ∉ "-text".toList := by
    simp [breaks]
  obtain ⟨hcolon, hemoji, htext⟩ := hother c hc
  refine ⟨hcolon, fun code _ hcode hmem => ?_⟩
  rw [Table.shown?, Option.isSome_map] at hcode
  rcases mem_name_of_mem hmem with hname | hvariant | hvariant
  · exact h _ hcode c hc hname
  · exact hemoji hvariant
  · exact htext hvariant

end LexicalPath.Emoji
