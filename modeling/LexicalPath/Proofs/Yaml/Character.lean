import LexicalPath.Yaml.Scalar.Gap
import LexicalPath.Yaml.Writer

namespace LexicalPath.Yaml

theorem isBreak_cases {c : Char} (h : isBreak c = true) :
    c = '\n' ∨ c = '\r' ∨ c = '\x85' ∨ c = '\u2028' ∨ c = '\u2029' := by
  simpa [isBreak, or_assoc] using h

theorem isWrittenBreak_cases {c : Char} (h : isWrittenBreak c = true) :
    c = '\n' ∨ c = '\x85' ∨ c = '\u2028' ∨ c = '\u2029' := by
  obtain ⟨hbreak, hreturn⟩ : isBreak c = true ∧ c ≠ '\r' := by simpa [isWrittenBreak] using h
  rcases isBreak_cases hbreak with hc | hc | hc
  · exact .inl hc
  · exact absurd hc hreturn
  · exact .inr hc

theorem startsWithMark_cons {c : Char} (hminus : c ≠ '-') (hpoint : c ≠ '.') (s : List Char) :
    startsWithMark (c :: s) = false := by
  simp [startsWithMark, startsLikeMark, Ne.symm hminus, Ne.symm hpoint]

theorem anyPair_cons (p : Char → Char → Bool) (c : Char) (rest : List Char) :
    anyPair p (c :: rest) = (goesOn (p c) rest || anyPair p rest) := by
  cases rest with
  | nil => rfl
  | cons d more => rfl

def unified (c : Char) : Char :=
  if c = '\r' ∨ c = '\x85' then '\n' else c

theorem isBreak_of_needsEscape {c : Char} (hescape : needsEscape c = false)
    (hbreak : isWrittenBreak c = false) : isBreak c = false := by
  have hreturn : c ≠ '\r' := by
    rintro rfl
    exact absurd hescape (by decide)
  simpa [isWrittenBreak, hreturn] using hbreak

theorem isSpace_of_needsEscape {c : Char} (hescape : needsEscape c = false) (hspace : c ≠ ' ') :
    isSpace c = false := by
  have htab : c ≠ '\t' := by
    rintro rfl
    exact absurd hescape (by decide)
  simp [isSpace, hspace, htab]

theorem isBlank_of_needsEscape {c : Char} (hescape : needsEscape c = false)
    (hbreak : isWrittenBreak c = false) (hspace : c ≠ ' ') : isBlank c = false := by
  have hnul : c ≠ '\x00' := by
    rintro rfl
    exact absurd hescape (by decide)
  simp [isBlank, isSpace_of_needsEscape hescape hspace, isBreak_of_needsEscape hescape hbreak, hnul]

theorem unified_of_needsEscape {c : Char} (hescape : needsEscape c = false)
    (hbreak : isWrittenBreak c = false) : unified c = c := by
  apply if_neg
  rintro (rfl | rfl)
  · exact absurd hescape (by decide)
  · exact absurd hbreak (by decide)

/-- The character may stand in a document, and what is read for it does not depend on the character
behind it. -/
def IsSound (c : Char) : Prop :=
  isAllowed c = true ∧ c ≠ '\r'

/-- The character may stand in a document and is read as itself. -/
def IsKept (c : Char) : Prop :=
  isAllowed c = true ∧ unified c = c

instance (c : Char) : Decidable (IsKept c) :=
  inferInstanceAs (Decidable (_ ∧ _))

theorem IsKept.isSound {c : Char} (h : IsKept c) : IsSound c := by
  refine ⟨h.1, ?_⟩
  rintro rfl
  exact absurd h.2 (by decide)

theorem isKept_of_all {s : List Char} (h : s.all (fun c => decide (IsKept c)) = true) {c : Char}
    (hc : c ∈ s) : IsKept c :=
  of_decide_eq_true (List.all_eq_true.mp h c hc)

theorem isSound_of_needsEscape {c : Char} (h : needsEscape c = false) : IsSound c := by
  constructor
  · by_cases hfeed : c = '\n'
    · subst hfeed
      decide
    · simp [needsEscape, hfeed] at h
      simp [isAllowed]
      omega
  · rintro rfl
    exact absurd h (by decide)

theorem isKept_of_isBare {c : Char} (h : isBare c = true) : IsKept c := by
  constructor
  · simp [isBare] at h
    simp [isAllowed]
    omega
  · apply if_neg
    rintro (rfl | rfl)
    all_goals exact absurd h (by decide)

theorem unifyBreaks_eq_map {s : List Char} (h : '\r' ∉ s) : unifyBreaks s = s.map unified := by
  induction s with
  | nil => rfl
  | cons c rest ih =>
      obtain ⟨hc, hrest⟩ := not_or.mp (mt List.mem_cons.mpr h)
      rw [unifyBreaks, ih hrest]
      · rfl
      · rintro more rfl
        exact absurd rfl hc

theorem map_unified {s : List Char} (h : ∀ c ∈ s, IsKept c) : s.map unified = s := by
  calc s.map unified = s.map id := List.map_congr_left fun c hc => (h c hc).2
    _ = s := List.map_id s

/-! ### Gaps -/

namespace Gap

theorem text_addSpace {gap : Gap} (h : gap.hasBreak = false) (c : Char) :
    (gap.addSpace c).text = gap.text ++ [c] := by
  cases gap with
  | none => rfl
  | spaces held => rfl
  | lines first more column => cases h

theorem hasBreak_addSpace (gap : Gap) (c : Char) :
    (gap.addSpace c).hasBreak = gap.hasBreak := by
  cases gap <;> rfl

theorem atLineStart_of_hasBreak {gap : Gap} (h : gap.hasBreak = false) :
    gap.atLineStart = false := by
  cases gap with
  | none => rfl
  | spaces held => rfl
  | lines first more column => cases h

end Gap

end LexicalPath.Yaml
