import Mathlib.Data.List.Basic
import LexicalPath.Command.Ansi

namespace LexicalPath.Command

/-- The character with which control sequences begin. -/
def escapeChar : Char :=
  '\x1b'

/-- A control sequence: an escape character and an opening bracket, then parameters, then
intermediate characters, and a final character. -/
def IsSequence (s : List Char) : Prop :=
  ∃ (parameters intermediates : List Char) (final : Char),
    s = escapeChar :: '[' :: (parameters ++ intermediates ++ [final]) ∧
      (∀ c ∈ parameters, isParameter c = true) ∧
      (∀ c ∈ intermediates, isIntermediate c = true) ∧ isFinal final = true

/-- A control sequence stands somewhere in the text. -/
def HoldsSequence (s : List Char) : Prop :=
  ∃ before sequence after, s = before ++ sequence ++ after ∧ IsSequence sequence

/-! ### The length of a control sequence -/

theorem isFinal_of_isIntermediate {c : Char} (h : isIntermediate c = true) : isFinal c = false := by
  simp only [isIntermediate, isFinal, Bool.and_eq_true, decide_eq_true_eq] at h ⊢
  have hle : c ≤ '/' := h.2
  have hlt : ¬ '@' ≤ c := fun hge => absurd (Char.le_trans hge hle) (by decide)
  simp [hlt]

theorem isFinal_of_isParameter {c : Char} (h : isParameter c = true) : isFinal c = false := by
  simp only [isParameter, isFinal, Bool.and_eq_true, decide_eq_true_eq] at h ⊢
  have hlt : ¬ '@' ≤ c := fun hge => absurd (Char.le_trans hge h.2) (by decide)
  simp [hlt]

theorem isIntermediate_of_isParameter {c : Char} (h : isParameter c = true) :
    isIntermediate c = false := by
  simp only [isParameter, isIntermediate, Bool.and_eq_true, decide_eq_true_eq] at h ⊢
  have hlt : ¬ c ≤ '/' := fun hle => absurd (Char.le_trans h.1 hle) (by decide)
  simp [hlt]

theorem sequenceLength?_intermediates (part : SequencePart) {intermediates : List Char}
    (h : ∀ c ∈ intermediates, isIntermediate c = true) {final : Char}
    (hfinal : isFinal final = true) (rest : List Char) :
    sequenceLength? part (intermediates ++ final :: rest) = some (intermediates.length + 1) := by
  induction intermediates generalizing part with
  | nil => rw [List.nil_append, sequenceLength?, if_pos hfinal, List.length_nil]
  | cons c more ih =>
      have hc := h c (by simp)
      rw [List.cons_append, sequenceLength?, if_neg (by simp [isFinal_of_isIntermediate hc]),
        if_pos hc, ih .intermediates fun d hd => h d (by simp [hd])]
      rfl

theorem sequenceLength?_parameters {parameters intermediates : List Char}
    (hparameters : ∀ c ∈ parameters, isParameter c = true)
    (h : ∀ c ∈ intermediates, isIntermediate c = true) {final : Char}
    (hfinal : isFinal final = true) (rest : List Char) :
    sequenceLength? .parameters (parameters ++ (intermediates ++ final :: rest)) =
      some (parameters.length + intermediates.length + 1) := by
  induction parameters with
  | nil =>
      rw [List.nil_append, sequenceLength?_intermediates .parameters h hfinal]
      simp
  | cons c more ih =>
      have hc := hparameters c (by simp)
      rw [List.cons_append, sequenceLength?, if_neg (by simp [isFinal_of_isParameter hc]),
        if_neg (by simp [isIntermediate_of_isParameter hc]), if_pos ⟨hc, rfl⟩,
        ih fun d hd => hparameters d (by simp [hd])]
      simp only [Option.map_some, List.length_cons]
      congr 1
      omega

theorem sequenceLength?_cons_cases {part : SequencePart} {c : Char} {rest : List Char} {n : Nat}
    (h : sequenceLength? part (c :: rest) = some n) :
    (isFinal c = true ∧ n = 1) ∨
    (isIntermediate c = true ∧ ∃ m, sequenceLength? .intermediates rest = some m ∧ n = m + 1) ∨
    ((isParameter c = true ∧ part = .parameters) ∧
      ∃ m, sequenceLength? .parameters rest = some m ∧ n = m + 1) := by
  rw [sequenceLength?] at h
  split at h
  · rename_i hfinal
    exact .inl ⟨hfinal, (Option.some.inj h).symm⟩
  split at h
  · rename_i hintermediate
    obtain ⟨m, hm, rfl⟩ := Option.map_eq_some_iff.mp h
    exact .inr (.inl ⟨hintermediate, m, hm, rfl⟩)
  split at h
  · rename_i hparameter
    obtain ⟨m, hm, rfl⟩ := Option.map_eq_some_iff.mp h
    exact .inr (.inr ⟨hparameter, m, hm, rfl⟩)
  · cases h

theorem exists_of_sequenceLength? {part : SequencePart} {s : List Char} {n : Nat}
    (h : sequenceLength? part s = some n) :
    ∃ (parameters intermediates : List Char) (final : Char) (rest : List Char),
      s = parameters ++ (intermediates ++ final :: rest) ∧
        (∀ c ∈ parameters, isParameter c = true ∧ part = .parameters) ∧
        (∀ c ∈ intermediates, isIntermediate c = true) ∧ isFinal final = true := by
  induction s generalizing part n with
  | nil => cases h
  | cons c rest ih =>
      rcases sequenceLength?_cons_cases h with
        ⟨hfinal, -⟩ | ⟨hintermediate, m, hm, -⟩ | ⟨hparameter, m, hm, -⟩
      · exact ⟨[], [], c, rest, rfl, by simp, by simp, hfinal⟩
      · obtain ⟨parameters, intermediates, final, after, rfl, hparameters, hall, hfinal⟩ := ih hm
        have hnone : parameters = [] := by
          rw [List.eq_nil_iff_forall_not_mem]
          intro d hd
          exact absurd (hparameters d hd).2 (by decide)
        subst hnone
        refine ⟨[], c :: intermediates, final, after, rfl, by simp, ?_, hfinal⟩
        exact List.forall_mem_cons.mpr ⟨hintermediate, hall⟩
      · obtain ⟨parameters, intermediates, final, after, rfl, hparameters, hall, hfinal⟩ := ih hm
        refine ⟨c :: parameters, intermediates, final, after, rfl, ?_, hall, hfinal⟩
        exact List.forall_mem_cons.mpr
          ⟨hparameter, fun d hd => ⟨(hparameters d hd).1, hparameter.2⟩⟩

theorem controlLength?_isSome_iff (rest : List Char) :
    (controlLength? rest).isSome = true ↔
      ∃ sequence after, escapeChar :: rest = sequence ++ after ∧ IsSequence sequence := by
  constructor
  · intro h
    unfold controlLength? at h
    split at h
    · rename_i behind
      obtain ⟨n, hn⟩ := Option.isSome_iff_exists.mp h
      obtain ⟨m, hm, -⟩ := Option.map_eq_some_iff.mp hn
      obtain ⟨parameters, intermediates, final, after, rfl, hparameters, hintermediates, hfinal⟩ :=
        exists_of_sequenceLength? hm
      exact ⟨_, after, by simp, parameters, intermediates, final, rfl,
        fun c hc => (hparameters c hc).1, hintermediates, hfinal⟩
    · cases h
  · rintro ⟨_, after, htext, parameters, intermediates, final, rfl, hparameters, hintermediates,
      hfinal⟩
    obtain rfl : rest = '[' :: (parameters ++ (intermediates ++ final :: after)) := by
      simpa using htext
    simp only [controlLength?, sequenceLength?_parameters hparameters hintermediates hfinal,
      Option.map_some, Option.isSome_some]

/-! ### Texts without control sequences -/

theorem withoutSequences_sublist (n : Nat) (s : List Char) :
    (withoutSequences n s).Sublist s := by
  induction s generalizing n with
  | nil => cases n <;> exact List.Sublist.refl []
  | cons c rest ih =>
      cases n with
      | succ n => exact (ih n).cons c
      | zero =>
          rw [withoutSequences]
          split
          · exact (ih _).cons c
          · exact (ih 0).cons_cons c

theorem holdsSequence_cons_iff (c : Char) (rest : List Char) :
    HoldsSequence (c :: rest) ↔
      (c = escapeChar ∧ (controlLength? rest).isSome = true) ∨ HoldsSequence rest := by
  rw [controlLength?_isSome_iff]
  constructor
  · rintro ⟨before, sequence, after, htext, hsequence⟩
    cases before with
    | nil =>
        obtain ⟨_, _, _, rfl, -⟩ := id hsequence
        obtain ⟨rfl, -⟩ := List.cons.inj htext
        exact .inl ⟨rfl, _, after, htext, hsequence⟩
    | cons d more =>
        obtain ⟨-, hrest⟩ := List.cons.inj htext
        exact .inr ⟨more, sequence, after, hrest, hsequence⟩
  · rintro (⟨rfl, sequence, after, htext, hsequence⟩ | ⟨before, sequence, after, rfl, hsequence⟩)
    · exact ⟨[], sequence, after, htext, hsequence⟩
    · exact ⟨c :: before, sequence, after, rfl, hsequence⟩

theorem withoutSequences_eq_self {s : List Char} (h : ¬ HoldsSequence s) :
    withoutSequences 0 s = s := by
  induction s with
  | nil => rfl
  | cons c rest ih =>
      obtain ⟨hc, hrest⟩ := not_or.mp (mt (holdsSequence_cons_iff c rest).mpr h)
      rw [withoutSequences]
      split
      · rename_i n hn
        split at hn
        · rename_i hescape
          exact absurd ⟨hescape, by rw [hn]; rfl⟩ hc
        · cases hn
      · rw [ih hrest]

theorem count_withoutSequences_lt {s : List Char} (h : HoldsSequence s) :
    (withoutSequences 0 s).count escapeChar < s.count escapeChar := by
  induction s with
  | nil =>
      obtain ⟨before, _, after, htext, _, _, _, rfl, -⟩ := h
      simp at htext
  | cons c rest ih =>
      rw [withoutSequences]
      split
      · rename_i n hn
        split at hn
        · rename_i hescape
          have hle := (withoutSequences_sublist n rest).count_le escapeChar
          rw [show c = escapeChar from hescape, List.count_cons_self]
          omega
        · cases hn
      · rename_i hnone
        rcases (holdsSequence_cons_iff c rest).mp h with ⟨rfl, hsome⟩ | hrest
        · rw [if_pos (show escapeChar = '\x1b' from rfl)] at hnone
          rw [hnone] at hsome
          cases hsome
        · have hlt := ih hrest
          rw [List.count_cons, List.count_cons]
          omega

/-! ### A line feed behind a text -/

theorem sequenceLength?_append_lineFeed (part : SequencePart) (s : List Char) :
    sequenceLength? part (s ++ ['\n']) = sequenceLength? part s := by
  induction s generalizing part with
  | nil => cases part <;> rfl
  | cons c rest ih => rw [List.cons_append, sequenceLength?, sequenceLength?, ih, ih]

theorem controlLength?_append_lineFeed (s : List Char) :
    controlLength? (s ++ ['\n']) = controlLength? s := by
  cases s with
  | nil => rfl
  | cons c rest =>
      by_cases hc : c = '['
      · subst hc
        simp only [List.cons_append, controlLength?, sequenceLength?_append_lineFeed]
      · have hnone (more : List Char) : controlLength? (c :: more) = none := by
          rw [controlLength?]
          rintro behind heq
          exact hc (List.cons.inj heq).1
        rw [List.cons_append, hnone, hnone]

theorem le_length_of_sequenceLength? {part : SequencePart} {s : List Char} {n : Nat}
    (h : sequenceLength? part s = some n) : n ≤ s.length := by
  induction s generalizing part n with
  | nil => cases h
  | cons c rest ih =>
      rcases sequenceLength?_cons_cases h with ⟨-, rfl⟩ | ⟨-, m, hm, rfl⟩ | ⟨-, m, hm, rfl⟩
      · simp
      · exact Nat.succ_le_succ (ih hm)
      · exact Nat.succ_le_succ (ih hm)

theorem le_length_of_controlLength? {s : List Char} {n : Nat} (h : controlLength? s = some n) :
    n ≤ s.length := by
  unfold controlLength? at h
  split at h
  · obtain ⟨m, hm, rfl⟩ := Option.map_eq_some_iff.mp h
    exact Nat.succ_le_succ (le_length_of_sequenceLength? hm)
  · cases h

theorem withoutSequences_append_lineFeed {n : Nat} {s : List Char} (hn : n ≤ s.length) :
    withoutSequences n (s ++ ['\n']) = withoutSequences n s ++ ['\n'] := by
  induction s generalizing n with
  | nil =>
      obtain rfl := Nat.le_zero.mp hn
      rfl
  | cons c rest ih =>
      cases n with
      | succ n => exact ih (Nat.le_of_succ_le_succ hn)
      | zero =>
          rw [List.cons_append, withoutSequences, withoutSequences, controlLength?_append_lineFeed]
          split
          · rename_i m hm
            split at hm
            · exact ih (le_length_of_controlLength? hm)
            · cases hm
          · rw [ih (Nat.zero_le _), List.cons_append]

/-! ### Printed texts -/

theorem printed_append_lineFeed (s : String) : printed (s ++ "\n") = printed s ++ "\n" := by
  have h := withoutSequences_append_lineFeed (Nat.zero_le s.toList.length)
  rw [← String.toList_inj]
  simpa [printed] using h

theorem count_printed_lt {s : String} (h : HoldsSequence s.toList) :
    (printed s).toList.count escapeChar < s.toList.count escapeChar := by
  rw [printed, String.toList_ofList]
  exact count_withoutSequences_lt h

/-- A text is printed as it is just when no control sequence stands in it. -/
theorem printed_eq_self_iff (s : String) : printed s = s ↔ ¬ HoldsSequence s.toList := by
  constructor
  · intro heq hholds
    have hlt := count_printed_lt hholds
    rw [heq] at hlt
    exact Nat.lt_irrefl _ hlt
  · intro h
    rw [printed, withoutSequences_eq_self h, String.ofList_toList]

theorem not_holdsSequence_of_not_mem {s : List Char} (h : escapeChar ∉ s) :
    ¬ HoldsSequence s := by
  rintro ⟨before, _, after, rfl, _, _, _, rfl, -⟩
  simp at h

end LexicalPath.Command
