import LexicalPath.Proofs.Json.Written

namespace LexicalPath.Json

/-- No control stands in the text but line feeds. -/
def IsClean (s : List Char) : Prop :=
  ∀ c ∈ s, c = '\n' ∨ 0x20 ≤ c.toNat

instance (s : List Char) : Decidable (IsClean s) :=
  List.decidableBAll (fun c => c = '\n' ∨ 0x20 ≤ c.toNat) s

theorem IsClean.append {s t : List Char} (hs : IsClean s) (ht : IsClean t) : IsClean (s ++ t) :=
  List.forall_mem_append.mpr ⟨hs, ht⟩

theorem IsClean.cons {c : Char} (hc : 0x20 ≤ c.toNat) {s : List Char} (hs : IsClean s) :
    IsClean (c :: s) :=
  List.forall_mem_cons.mpr ⟨.inr hc, hs⟩

theorem isClean_joined {separator : List Char} (hseparator : IsClean separator)
    {parts : List (List Char)} (hparts : ∀ part ∈ parts, IsClean part) :
    IsClean (Text.joined separator parts) := by
  induction parts with
  | nil => exact List.forall_mem_nil _
  | cons part more ih =>
      have hpart := hparts part (by simp)
      cases more with
      | nil => exact hpart
      | cons next more =>
          have hmore := ih fun p hp => hparts p (by simp [hp])
          exact (hpart.append hseparator).append hmore

theorem le_toNat_lowerDigit : ∀ d < 16, 0x20 ≤ (Text.lowerDigit d).toNat := by decide

theorem isClean_hex (width n : Nat) : IsClean (Text.hex Text.lowerDigit width n) := by
  induction width generalizing n with
  | zero => exact List.forall_mem_nil _
  | succ width ih =>
      have hlast := le_toNat_lowerDigit (n % 16) (Nat.mod_lt n (by decide))
      exact (ih (n / 16)).append (.cons hlast (List.forall_mem_nil _))

theorem isClean_writeChar (c : Char) : IsClean (writeChar c) := by
  unfold writeChar
  split
  case isTrue hself => rcases hself with rfl | rfl <;> decide
  case isFalse =>
    -- Five controls have a letter of their own.
    iterate 5
      split
      · decide
    split
    case isTrue => exact .cons (by decide) (.cons (by decide) (isClean_hex 4 c.toNat))
    case isFalse hcontrol => exact .cons (Nat.le_of_not_lt hcontrol) (List.forall_mem_nil _)

theorem isClean_writeText (s : String) : IsClean (writeText s) := by
  refine .cons (by decide) (IsClean.append ?_ (by decide))
  intro c hc
  obtain ⟨d, -, hd⟩ := List.mem_flatMap.mp hc
  exact isClean_writeChar d c hd

theorem isClean_lineBreak (indent : Option Int) (depth : Nat) :
    IsClean (lineBreak indent depth) := by
  cases indent with
  | none => exact List.forall_mem_nil _
  | some n =>
      refine List.forall_mem_cons.mpr ⟨.inl rfl, ?_⟩
      intro c hc
      rw [List.eq_of_mem_replicate hc]
      exact .inr (by decide)

theorem isClean_comma (indent : Option Int) (depth : Nat) : IsClean (comma indent depth) := by
  cases indent with
  | none => exact .cons (by decide) (.cons (by decide) (List.forall_mem_nil _))
  | some n => exact .cons (by decide) (isClean_lineBreak (some n) depth)

theorem isClean_enclose (indent : Option Int) (depth : Nat) {opening closing : Char}
    (hopening : 0x20 ≤ opening.toNat) (hclosing : 0x20 ≤ closing.toNat)
    {items : List (List Char)} (hitems : ∀ item ∈ items, IsClean item) :
    IsClean (enclose indent depth opening closing items) := by
  have hlast : IsClean [closing] := .cons hclosing (List.forall_mem_nil _)
  unfold enclose
  split
  · exact .cons hopening hlast
  · refine .cons hopening (((IsClean.append ?_ ?_).append ?_).append hlast)
    · exact isClean_lineBreak indent (depth + 1)
    · exact isClean_joined (isClean_comma indent (depth + 1)) hitems
    · exact isClean_lineBreak indent depth

theorem Plain.isClean_writeAt {room : Nat} {d : Datum} (h : Plain room d) (indent : Option Int)
    (depth : Nat) : IsClean (writeAt indent depth d) := by
  induction h generalizing depth with
  | null => exact (by decide : IsClean "null".toList)
  | bool value =>
      cases value with
      | false => exact (by decide : IsClean "false".toList)
      | true => exact (by decide : IsClean "true".toList)
  | text value => exact isClean_writeText value
  | list hitems ih =>
      rw [writeAt, writeItems_eq_map]
      apply isClean_enclose indent depth (by decide) (by decide)
      intro item hitem
      obtain ⟨value, hvalue, rfl⟩ := List.mem_map.mp hitem
      exact ih value hvalue (depth + 1)
  | mapping hkeys hvalues ih =>
      rw [writeAt, writeEntries_eq_map]
      apply isClean_enclose indent depth (by decide) (by decide)
      intro item hitem
      obtain ⟨entry, hentry, rfl⟩ := List.mem_map.mp hitem
      exact (isClean_writeText entry.1).append
        (.cons (by decide) (.cons (by decide) (ih entry hentry (depth + 1))))

end LexicalPath.Json
