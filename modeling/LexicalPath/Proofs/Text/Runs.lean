import Mathlib.Data.List.Basic
import Mathlib.Data.List.TakeWhile
import LexicalPath.Text.Split

namespace LexicalPath.Text

variable {p : Char → Bool}

/-- A text without separators that is not empty. -/
def IsRun (p : Char → Bool) (s : List Char) : Prop :=
  s ≠ [] ∧ ∀ c ∈ s, p c = false

theorem pieces_append_separator {sep : Char} (hsep : p sep = true) (s t : List Char) :
    pieces p (s ++ sep :: t) = pieces p s ++ pieces p t := by
  induction s with
  | nil => simp [pieces, hsep]
  | cons c rest ih =>
      rw [List.cons_append, pieces, pieces, ih]
      split
      · rfl
      · obtain ⟨piece, more, hpieces⟩ := List.exists_cons_of_ne_nil (pieces_ne_nil p rest)
        rw [hpieces]
        rfl

theorem pieces_of_free {s : List Char} (hs : ∀ c ∈ s, p c = false) : pieces p s = [s] := by
  induction s with
  | nil => rfl
  | cons c rest ih =>
      have hrest : ∀ c ∈ rest, p c = false := fun c hc => hs c (by simp [hc])
      rw [pieces, if_neg (by simp [hs c]), ih hrest]
      rfl

theorem free_of_mem_pieces {s piece : List Char} (h : piece ∈ pieces p s) :
    ∀ c ∈ piece, p c = false := by
  induction s generalizing piece with
  | nil =>
      have : piece = [] := by simpa [pieces] using h
      simp [this]
  | cons c rest ih =>
      rw [pieces] at h
      split at h
      · rcases List.mem_cons.mp h with rfl | h
        · simp
        · exact ih h
      · rename_i hc
        obtain ⟨first, more, hpieces⟩ := List.exists_cons_of_ne_nil (pieces_ne_nil p rest)
        rw [hpieces] at h ih
        rcases List.mem_cons.mp h with rfl | h
        · intro x hx
          rcases List.mem_cons.mp hx with rfl | hx
          · simpa using hc
          · exact ih List.mem_cons_self x hx
        · exact ih (List.mem_cons_of_mem _ h)

theorem runs_append_separator {sep : Char} (hsep : p sep = true) (s t : List Char) :
    runs p (s ++ sep :: t) = runs p s ++ runs p t := by
  rw [runs, pieces_append_separator hsep, List.filter_append]
  rfl

theorem runs_of_isRun {s : List Char} (hs : IsRun p s) : runs p s = [s] := by
  rw [runs, pieces_of_free hs.2]
  simp [hs.1]

theorem isRun_of_mem_runs {s run : List Char} (h : run ∈ runs p s) : IsRun p run := by
  obtain ⟨hmem, hne⟩ := List.mem_filter.mp h
  exact ⟨by simpa using hne, free_of_mem_pieces hmem⟩

theorem isRun_takeWhile {s : List Char} (h : s.takeWhile (! p ·) ≠ []) :
    IsRun p (s.takeWhile (! p ·)) := by
  refine ⟨h, ?_⟩
  intro c hc
  simpa using List.mem_takeWhile_imp hc

theorem cut_append_of_isRun {run rest : List Char} (hrun : IsRun p run)
    (hrest : ∀ c ∈ rest.head?, p c = true) :
    (run ++ rest).takeWhile (! p ·) = run ∧ (run ++ rest).dropWhile (! p ·) = rest := by
  have hfree : ∀ c ∈ run, (! p c) = true := by
    intro c hc
    rw [hrun.2 c hc]
    rfl
  rw [List.takeWhile_append_of_pos hfree, List.dropWhile_append_of_pos hfree]
  cases rest with
  | nil => simp
  | cons c more => simp [hrest c rfl]

theorem separator_of_head?_dropWhile {s : List Char} :
    ∀ c ∈ (s.dropWhile (! p ·)).head?, p c = true := by
  intro c hc
  have hhead := List.head?_dropWhile_not (! p ·) s
  rw [Option.mem_def.mp hc] at hhead
  simpa using hhead

theorem runs_joined {sep : Char} (hsep : p sep = true) {parts : List (List Char)}
    (hparts : ∀ part ∈ parts, IsRun p part) : runs p (joined [sep] parts) = parts := by
  induction parts with
  | nil => rfl
  | cons part rest ih =>
      have hpart := runs_of_isRun (hparts part (by simp))
      cases rest with
      | nil => exact hpart
      | cons next more =>
          rw [joined, List.append_assoc, List.singleton_append, runs_append_separator hsep, hpart,
            ih fun other hother => hparts other (by simp [hother])]
          rfl

theorem map_runs_joined {sep : Char} (hsep : p sep = true) {names : List String}
    (hnames : ∀ part ∈ names.map String.toList, IsRun p part) :
    (runs p (joined [sep] (names.map String.toList))).map String.ofList = names := by
  rw [runs_joined hsep hnames, List.map_map]
  simp [Function.comp_def]

theorem head?_joined_cons {part : List Char} (hpart : part ≠ []) (separator : List Char)
    (rest : List (List Char)) : (joined separator (part :: rest)).head? = part.head? := by
  obtain ⟨c, more, rfl⟩ := List.exists_cons_of_ne_nil hpart
  cases rest <;> rfl

theorem free_head?_joined {parts : List (List Char)} (hparts : ∀ part ∈ parts, IsRun p part)
    (separator : List Char) : ∀ c ∈ (joined separator parts).head?, p c = false := by
  cases parts with
  | nil => simp [joined]
  | cons part rest =>
      obtain ⟨hne, hfree⟩ := hparts part (by simp)
      intro c hc
      rw [head?_joined_cons hne] at hc
      exact hfree c (List.mem_of_mem_head? hc)

theorem joined_eq_nil_iff {parts : List (List Char)} (hparts : ∀ part ∈ parts, part ≠ [])
    (separator : List Char) : joined separator parts = [] ↔ parts = [] := by
  constructor
  · intro h
    cases parts with
    | nil => rfl
    | cons part rest =>
        have hne := hparts part (by simp)
        have hhead := head?_joined_cons hne separator rest
        rw [h] at hhead
        exact absurd (List.head?_eq_none_iff.mp hhead.symm) hne
  · rintro rfl
    rfl

theorem free_getLast?_joined {parts : List (List Char)} (hparts : ∀ part ∈ parts, IsRun p part)
    (separator : List Char) : ∀ c ∈ (joined separator parts).getLast?, p c = false := by
  induction parts with
  | nil => simp [joined]
  | cons part rest ih =>
      cases rest with
      | nil =>
          intro c hc
          exact (hparts part (by simp)).2 c (List.mem_of_mem_getLast? hc)
      | cons next more =>
          have hrest : ∀ other ∈ next :: more, IsRun p other :=
            fun other hother => hparts other (by simp [hother])
          have hne : joined separator (next :: more) ≠ [] := by
            rw [Ne, joined_eq_nil_iff fun other hother => (hrest other hother).1]
            simp
          intro c hc
          rw [joined, List.getLast?_append_of_ne_nil _ hne] at hc
          exact ih hrest c hc

theorem infix_joined {separator : List Char} {parts : List (List Char)} {part : List Char}
    (h : part ∈ parts) : part <:+: joined separator parts := by
  induction parts with
  | nil => cases h
  | cons first more ih =>
      cases more with
      | nil =>
          obtain rfl := List.mem_singleton.mp h
          exact List.infix_rfl
      | cons next more =>
          rw [joined]
          rcases List.mem_cons.mp h with rfl | hmore
          · rw [List.append_assoc]
            exact (List.prefix_append part _).isInfix
          · exact (ih hmore).trans (List.suffix_append _ _).isInfix

theorem mem_joined {separator : List Char} {parts : List (List Char)} {c : Char}
    (h : c ∈ joined separator parts) : c ∈ separator ∨ ∃ part ∈ parts, c ∈ part := by
  induction parts with
  | nil => simp [joined] at h
  | cons part rest ih =>
      cases rest with
      | nil => exact Or.inr ⟨part, by simp, h⟩
      | cons next more =>
          rw [joined, List.append_assoc, List.mem_append, List.mem_append] at h
          rcases h with h | h | h
          · exact Or.inr ⟨part, by simp, h⟩
          · exact Or.inl h
          · rcases ih h with h | ⟨other, hother, hc⟩
            · exact Or.inl h
            · exact Or.inr ⟨other, by simp [hother], hc⟩

theorem dropWhile_eq_self {s : List Char} (h : ∀ c ∈ s.head?, p c = false) :
    s.dropWhile p = s := by
  cases s with
  | nil => rfl
  | cons c rest => exact List.dropWhile_cons_of_neg (by simp [h c rfl])

theorem trimEnd_eq_self {s : List Char} (h : ∀ c ∈ s.getLast?, p c = false) :
    trimEnd p s = s := by
  rw [trimEnd, dropWhile_eq_self, List.reverse_reverse]
  simpa using h

theorem trim_eq_self {s : List Char} (hhead : ∀ c ∈ s.head?, p c = false)
    (hlast : ∀ c ∈ s.getLast?, p c = false) : trim p s = s := by
  rw [trim, dropWhile_eq_self hhead, trimEnd_eq_self hlast]

theorem trim_cons_separator {sep : Char} (hsep : p sep = true) (s : List Char) :
    trim p (sep :: s) = trim p s := by
  rw [trim, List.dropWhile_cons_of_pos hsep]
  rfl

theorem trimEnd_joined {parts : List (List Char)} (hparts : ∀ part ∈ parts, IsRun p part)
    (separator : List Char) : trimEnd p (joined separator parts) = joined separator parts :=
  trimEnd_eq_self (free_getLast?_joined hparts separator)

theorem trim_joined {parts : List (List Char)} (hparts : ∀ part ∈ parts, IsRun p part)
    (separator : List Char) : trim p (joined separator parts) = joined separator parts :=
  trim_eq_self (free_head?_joined hparts separator) (free_getLast?_joined hparts separator)

end LexicalPath.Text
