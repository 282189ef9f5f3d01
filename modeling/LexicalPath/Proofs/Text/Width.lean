import LexicalPath.Proofs.Text.Printable
import LexicalPath.Text.Width

namespace LexicalPath.Text

theorem isPrintable_joiner : isPrintable '\u200d' = false := by
  decide +kernel

theorem widthBehind_cons {c : Char} (hc : isPrintable c = true) (last : Option Char)
    (rest : List Char) :
    widthBehind last (c :: rest) =
      if c = '\ufe0f' then (if last.any isPictured then 1 else 0) + widthBehind none rest
      else if charWidth c = 0 then widthBehind last rest
      else charWidth c + widthBehind (some c) rest := by
  have hjoiner : c ≠ '\u200d' := ne_of_isPrintable hc isPrintable_joiner
  rw [widthBehind]
  · rintro rfl
    exact absurd rfl hjoiner
  · rintro _ _ rfl
    exact absurd rfl hjoiner

theorem widthBehind_space (last : Option Char) (rest : List Char) :
    widthBehind last (' ' :: rest) = 1 + widthBehind (some ' ') rest := by
  rw [widthBehind_cons (by decide), if_neg (by decide), if_neg (by decide)]
  rfl

theorem widthBehind_congr {last other : Option Char}
    (h : last.any isPictured = other.any isPictured)
    {s : List Char} (hs : IsShown s) : widthBehind last s = widthBehind other s := by
  induction s with
  | nil => rfl
  | cons c rest ih =>
      obtain ⟨hc, hrest⟩ := isShown_cons.mp hs
      rw [widthBehind_cons hc, widthBehind_cons hc, h, ih hrest]

theorem widthBehind_append_space (last : Option Char) {s t : List Char} (hs : IsShown s)
    (ht : IsShown t) : widthBehind last (s ++ ' ' :: t) = widthBehind last s + 1 + width t := by
  induction s generalizing last with
  | nil =>
      have hspace : widthBehind (some ' ') t = width t := widthBehind_congr (by decide +kernel) ht
      rw [List.nil_append, widthBehind_space, hspace, widthBehind, Nat.zero_add]
  | cons c rest ih =>
      obtain ⟨hc, hrest⟩ := isShown_cons.mp hs
      rw [List.cons_append, widthBehind_cons hc, widthBehind_cons hc]
      simp only [ih _ hrest]
      split
      · omega
      split
      · rfl
      · omega

theorem width_append_space {s t : List Char} (hs : IsShown s) (ht : IsShown t) :
    width (s ++ ' ' :: t) = width s + 1 + width t :=
  widthBehind_append_space none hs ht

theorem width_append_behind_space {front s : List Char} (hfront : IsShown front) (hs : IsShown s) :
    width (front ++ [' '] ++ s) = width (front ++ [' ']) + width s := by
  rw [List.append_assoc, List.singleton_append, width_append_space hfront hs,
    width_append_space hfront (List.forall_mem_nil _)]
  rfl

theorem isShown_spaces (n : Nat) : IsShown (List.replicate n ' ') := by
  intro c hc
  rw [List.eq_of_mem_replicate hc]
  decide

theorem width_append_spaces {s : List Char} (hs : IsShown s) (n : Nat) :
    width (s ++ List.replicate n ' ') = width s + n := by
  induction n with
  | zero => rw [List.replicate_zero, List.append_nil, Nat.add_zero]
  | succ n ih =>
      have hmore := isShown_append.mpr ⟨hs, isShown_spaces n⟩
      rw [List.replicate_succ', ← List.append_assoc,
        width_append_space hmore (List.forall_mem_nil _),
        ih]
      rfl

theorem width_trimEnd_le {s : List Char} (hs : IsShown s) :
    width (trimEnd isBlank s) ≤ width s := by
  have hspaces := eq_trimEnd_append_spaces hs
  have htrimmed : IsShown (trimEnd isBlank s) := (isShown_append.mp (hspaces ▸ hs)).1
  rw [congrArg width hspaces, width_append_spaces htrimmed]
  exact Nat.le_add_right _ _

end LexicalPath.Text
