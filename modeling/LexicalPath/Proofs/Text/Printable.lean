import Mathlib.Data.List.TakeWhile
import LexicalPath.Text.Blank
import LexicalPath.Text.Quoted
import LexicalPath.Text.Split

namespace LexicalPath.Text

/-- All characters are shown as themselves. -/
def IsShown (s : List Char) : Prop :=
  ∀ c ∈ s, isPrintable c = true

instance (s : List Char) : Decidable (IsShown s) :=
  List.decidableBAll (fun c => isPrintable c = true) s

theorem isShown_append {s t : List Char} : IsShown (s ++ t) ↔ IsShown s ∧ IsShown t :=
  List.forall_mem_append

theorem isShown_cons {c : Char} {s : List Char} :
    IsShown (c :: s) ↔ isPrintable c = true ∧ IsShown s :=
  List.forall_mem_cons

theorem isPrintable_of_ascii {c : Char} (hlow : 32 ≤ c.toNat) (hhigh : c.toNat < 127) :
    isPrintable c = true := by
  rw [isPrintable, if_pos hhigh]
  exact decide_eq_true hlow

theorem ne_of_isPrintable {c d : Char} (hc : isPrintable c = true) (hd : isPrintable d = false) :
    c ≠ d := by
  rintro rfl
  rw [hd] at hc
  cases hc

theorem IsShown.not_mem {s : List Char} (hs : IsShown s) {d : Char} (hd : isPrintable d = false) :
    d ∉ s :=
  fun h => ne_of_isPrintable (hs d h) hd rfl

/-! ### Blanks -/

theorem inRanges_iff (ranges : List (Nat × Nat)) (n : Nat) :
    inRanges ranges n = true ↔ ∃ range ∈ ranges, range.1 ≤ n ∧ n ≤ range.2 := by
  simp [inRanges]

theorem blankRanges_within : ∀ range ∈ blankRanges,
    range.2 ≤ 32 ∨ 127 ≤ range.1 ∧
      ∃ other ∈ unprintable, other.1 ≤ range.1 ∧ range.2 ≤ other.2 := by
  decide +kernel

theorem eq_space_of_isBlank {c : Char} (hc : isPrintable c = true) (hblank : isBlank c = true) :
    c = ' ' := by
  obtain ⟨range, hrange, hlow, hhigh⟩ := (inRanges_iff _ _).mp hblank
  rcases blankRanges_within range hrange with hspace | ⟨hbeyond, other, hother, hlow', hhigh'⟩
  · have hle : c.toNat ≤ 32 := hhigh.trans hspace
    rw [isPrintable, if_pos (by omega), decide_eq_true_eq] at hc
    exact Char.toNat_inj.mp (Nat.le_antisymm hle hc)
  · have hunprintable : inRanges unprintable c.toNat = true :=
      (inRanges_iff _ _).mpr ⟨other, hother, by omega, by omega⟩
    rw [isPrintable, if_neg (by omega), hunprintable] at hc
    cases hc

theorem eq_trimEnd_append_spaces {s : List Char} (hs : IsShown s) :
    s = trimEnd isBlank s ++ List.replicate (s.reverse.takeWhile isBlank).length ' ' := by
  have hspaces : s.reverse.takeWhile isBlank =
      List.replicate (s.reverse.takeWhile isBlank).length ' ' := by
    apply List.eq_replicate_of_mem
    intro c hc
    have hmem : c ∈ s := List.mem_reverse.mp ((List.takeWhile_sublist _).mem hc)
    exact eq_space_of_isBlank (hs c hmem) (List.mem_takeWhile_imp hc)
  have hreverse : s = (s.reverse.dropWhile isBlank).reverse ++
      (s.reverse.takeWhile isBlank).reverse := by
    rw [← List.reverse_append, List.takeWhile_append_dropWhile, List.reverse_reverse]
  rw [hspaces, List.reverse_replicate] at hreverse
  exact hreverse

/-! ### Texts in quotes -/

theorem isPrintable_lowerDigit : ∀ d < 16, isPrintable (lowerDigit d) = true := by
  decide +kernel

theorem isShown_hex (width n : Nat) : IsShown (hex lowerDigit width n) := by
  induction width generalizing n with
  | zero => exact List.forall_mem_nil _
  | succ width ih =>
      rw [hex, isShown_append]
      refine ⟨ih _, List.forall_mem_singleton.mpr ?_⟩
      exact isPrintable_lowerDigit _ (Nat.mod_lt n (by decide))

theorem isShown_quotedChar {mark : Char} (hmark : isPrintable mark = true) (c : Char) :
    IsShown (quotedChar mark c) := by
  have hescaped {d : Char} (hd : isPrintable d = true) : IsShown ['\\', d] :=
    isShown_cons.mpr ⟨by decide, List.forall_mem_singleton.mpr hd⟩
  have hhex {letter : Char} (hletter : isPrintable letter = true) (width : Nat) :
      IsShown ('\\' :: letter :: hex lowerDigit width c.toNat) :=
    isShown_cons.mpr ⟨by decide, isShown_cons.mpr ⟨hletter, isShown_hex _ _⟩⟩
  unfold quotedChar
  split
  · rename_i hc
    refine hescaped ?_
    rcases hc with rfl | rfl
    · exact hmark
    · decide
  split
  · exact hescaped (by decide)
  split
  · exact hescaped (by decide)
  split
  · exact hescaped (by decide)
  split
  · exact List.forall_mem_singleton.mpr ‹_›
  split
  · exact hhex (by decide) 2
  split
  · exact hhex (by decide) 4
  · exact hhex (by decide) 8

theorem isShown_quotedChars (s : List Char) : IsShown (quotedChars s) := by
  have hmark : isPrintable (quoteMark s) = true := by
    rw [quoteMark]
    split <;> decide
  rw [quotedChars, List.cons_append, isShown_cons, isShown_append]
  refine ⟨hmark, ?_, List.forall_mem_singleton.mpr hmark⟩
  intro d hd
  obtain ⟨c, -, hc⟩ := List.mem_flatMap.mp hd
  exact isShown_quotedChar hmark c d hc

theorem isShown_quotedOption (s : Option String) : IsShown (quotedOption s).toList := by
  cases s with
  | none => decide
  | some s =>
      rw [quotedOption, quoted, String.toList_ofList]
      exact isShown_quotedChars s.toList

theorem isShown_intercalate {separator : List Char} (hseparator : IsShown separator)
    {parts : List (List Char)} (hparts : ∀ part ∈ parts, IsShown part) :
    IsShown (separator.intercalate parts) := by
  induction parts with
  | nil => exact List.forall_mem_nil _
  | cons part more ih =>
      obtain ⟨hpart, hmore⟩ := List.forall_mem_cons.mp hparts
      cases more with
      | nil => rwa [List.intercalate_singleton]
      | cons next more =>
          rw [List.intercalate_cons_cons, isShown_append, isShown_append]
          exact ⟨⟨hpart, hseparator⟩, ih hmore⟩

theorem isShown_quotedList (items : List String) : IsShown (quotedList items).toList := by
  have hitems : ∀ part ∈ (items.map quoted).map String.toList, IsShown part := by
    intro part hpart
    obtain ⟨_, hquoted, rfl⟩ := List.mem_map.mp hpart
    obtain ⟨item, -, rfl⟩ := List.mem_map.mp hquoted
    rw [quoted, String.toList_ofList]
    exact isShown_quotedChars item.toList
  rw [quotedList, String.toList_append, String.toList_append, String.toList_intercalate,
    isShown_append, isShown_append]
  exact ⟨⟨by decide, isShown_intercalate (by decide) hitems⟩, by decide⟩

end LexicalPath.Text
